import Mathlib.Data.List.TakeWhile

/-!
# URI references

The generic syntax: scheme, authority, path, query and fragment. A text is taken apart at its delimiters
(`Reference.split`); a reference whose components are of their classes is read back from its text
(`split_text`). So the texts that `parse` accepts are those of the well-formed references, each of one.
-/

namespace MacdTradingBot.Uri

/-! ## Delimiters -/

/-- An optional component after its delimiter. -/
def after (delim : Char) : Option (List Char) → List Char
  | none => []
  | some component => delim :: component

/-- An optional component before its delimiter. -/
def before (delim : Char) : Option (List Char) → List Char
  | none => []
  | some component => component ++ [delim]

/-- What comes before the first delimiter and, if there is one, after it. -/
def cut (delim : Char) (s : List Char) : List Char × Option (List Char) :=
  (s.takeWhile (· ≠ delim), (s.dropWhile (· ≠ delim)).tail?)

variable {delim c : Char} {s t : List Char}

/-- A property of finitely many delimiters, tested one by one. -/
theorem forall_mem_of_all {p : Char → Prop} [DecidablePred p] (h : (s.all fun c => decide (p c)) = true) :
    ∀ c ∈ s, p c :=
  fun c hc => decide_eq_true_iff.mp (List.all_eq_true.mp h c hc)

/-- What is cut off, put back, gives the text. -/
theorem text_cut (delim : Char) (s : List Char) : (cut delim s).1 ++ after delim (cut delim s).2 = s := by
  induction s with
  | nil => rfl
  | cons c s ih =>
    by_cases hc : c = delim
    · subst hc
      simp [cut, after]
    · have hstep : cut delim (c :: s) = (c :: (cut delim s).1, (cut delim s).2) := by
        simp [cut, hc]
      rw [hstep]
      exact congrArg (c :: ·) ih

theorem forall_ne_of_not_mem (h : delim ∉ s) : ∀ c ∈ s, decide (c ≠ delim) = true := by
  intro c hc
  rw [decide_eq_true_iff]
  rintro rfl
  exact h hc

/-- The text is cut at the first delimiter. -/
theorem cut_append (h : delim ∉ s) (component : Option (List Char)) :
    cut delim (s ++ after delim component) = (s, component) := by
  have hs := forall_ne_of_not_mem h
  rw [cut, List.takeWhile_append_of_pos hs, List.dropWhile_append_of_pos hs]
  cases component with
  | none => simp [after]
  | some component => simp [after]

/-- A text without the delimiter is not cut. -/
theorem cut_eq_of_not_mem (h : delim ∉ s) : cut delim s = (s, none) := by
  have hcut := cut_append h none
  rwa [after, List.append_nil] at hcut

/-! ## References -/

structure Authority where
  userinfo : Option (List Char) := none
  host : List Char
  port : Option (List Char) := none
deriving DecidableEq, Repr

structure Reference where
  scheme : Option (List Char)
  authority : Option Authority
  path : List Char
  query : Option (List Char) := none
  fragment : Option (List Char) := none
deriving DecidableEq, Repr

def Authority.text (a : Authority) : List Char := before '@' a.userinfo ++ a.host ++ after ':' a.port

/-- The authority after its two slashes. -/
def authorityText : Option Authority → List Char
  | none => []
  | some a => '/' :: '/' :: a.text

namespace Reference

def text (u : Reference) : List Char :=
  before ':' u.scheme ++ authorityText u.authority ++ u.path ++ after '?' u.query ++ after '#' u.fragment

def userinfo (u : Reference) : Option (List Char) := u.authority.bind Authority.userinfo

/-- The host, which is empty without an authority. -/
def host (u : Reference) : List Char := (u.authority.map Authority.host).getD []

def port (u : Reference) : Option (List Char) := u.authority.bind Authority.port

/-- The reference up to its authority. -/
def origin (u : Reference) : Reference := { scheme := u.scheme, authority := u.authority, path := [] }

end Reference

/-! ## The grammar -/

/-- An address between brackets. -/
def IsBracketed (host : List Char) : Prop := ∃ address, host = '[' :: address ++ [']'] ∧ ']' ∉ address

/-- The classes of the components. No component has the delimiters that end it, but for the colons of an
address between brackets. -/
structure Grammar where
  scheme : List Char → Bool
  userinfo : List Char → Bool
  host : List Char → Bool
  path : List Char → Bool
  query : List Char → Bool
  fragment : List Char → Bool
  scheme_nil : scheme [] = false
  scheme_delims : ∀ s, scheme s = true → ∀ d ∈ [':', '/', '?', '#'], d ∉ s
  userinfo_delims : ∀ s, userinfo s = true → ∀ d ∈ ['@', '/', '?', '#'], d ∉ s
  host_nil : host [] = true
  host_delims : ∀ s, host s = true → ∀ d ∈ ['@', '/', '?', '#'], d ∉ s
  host_colon : ∀ s, host s = true → IsBracketed s ∨ ':' ∉ s ∧ '[' ∉ s
  path_nil : path [] = true
  path_slash : ∀ s, path s = true → path ('/' :: s) = true
  path_delims : ∀ s, path s = true → ∀ d ∈ ['?', '#'], d ∉ s
  query_delims : ∀ s, query s = true → '#' ∉ s

variable {G : Grammar}

/-- The components of the authority are of their classes. -/
def Authority.WellFormed (G : Grammar) (a : Authority) : Prop :=
  a.userinfo.all G.userinfo = true ∧ G.host a.host = true ∧ a.port.all (·.all Char.isDigit) = true

instance (a : Authority) : Decidable (a.WellFormed G) := inferInstanceAs (Decidable (_ ∧ _))

/-- The components are of their classes, and a path is not taken for anything else. -/
structure Reference.WellFormed (G : Grammar) (u : Reference) : Prop where
  scheme : u.scheme.all G.scheme = true
  authority : u.authority.all (fun a => a.WellFormed G) = true
  path : G.path u.path = true
  query : u.query.all G.query = true
  fragment : u.fragment.all G.fragment = true
  path_authority : u.authority.isSome = true → ∀ c ∈ u.path.head?, c = '/'
  path_only : u.authority = none → ¬ ['/', '/'] <+: u.path
  path_noscheme : u.scheme = none → u.authority = none → ':' ∉ u.path.takeWhile (· ≠ '/')

instance (u : Reference) : Decidable (u.WellFormed G) :=
  -- One character is looked at, not every one there is.
  haveI : Decidable (∀ c ∈ u.path.head?, c = '/') := Option.decidableForallMem _
  decidable_of_iff
    (u.scheme.all G.scheme = true ∧ u.authority.all (fun a => a.WellFormed G) = true ∧
      G.path u.path = true ∧ u.query.all G.query = true ∧ u.fragment.all G.fragment = true ∧
      (u.authority.isSome = true → ∀ c ∈ u.path.head?, c = '/') ∧
      (u.authority = none → ¬ ['/', '/'] <+: u.path) ∧
      (u.scheme = none → u.authority = none → ':' ∉ u.path.takeWhile (· ≠ '/')))
    ⟨fun ⟨h1, h2, h3, h4, h5, h6, h7, h8⟩ => ⟨h1, h2, h3, h4, h5, h6, h7, h8⟩,
      fun ⟨h1, h2, h3, h4, h5, h6, h7, h8⟩ => ⟨h1, h2, h3, h4, h5, h6, h7, h8⟩⟩

/-! ## Taking a text apart -/

/-- Host and port. An address between brackets ends at the closing one. -/
def splitHostPort (s : List Char) : List Char × Option (List Char) :=
  if s.head? = some '[' then
    match cut ']' s with
    | (address, some []) => (address ++ [']'], none)
    | (address, some (':' :: port)) => (address ++ [']'], some port)
    | _ => (s, none)
  else cut ':' s

def Authority.split (s : List Char) : Authority :=
  match cut '@' s with
  | (_, none) => { host := (splitHostPort s).1, port := (splitHostPort s).2 }
  | (userinfo, some s) =>
    { userinfo := some userinfo, host := (splitHostPort s).1, port := (splitHostPort s).2 }

/-- The scheme, which has no slash. -/
def splitScheme (s : List Char) : Option (List Char) × List Char :=
  match cut ':' s with
  | (scheme, some rest) => if scheme = [] ∨ '/' ∈ scheme then (none, s) else (some scheme, rest)
  | (_, none) => (none, s)

/-- Two slashes, an authority and a path. -/
def splitAuthority : List Char → Option Authority × List Char
  | '/' :: '/' :: s => (some (Authority.split (s.takeWhile (· ≠ '/'))), s.dropWhile (· ≠ '/'))
  | s => (none, s)

def Reference.split (s : List Char) : Reference :=
  let (s, fragment) := cut '#' s
  let (s, query) := cut '?' s
  let (scheme, s) := splitScheme s
  let (authority, path) := splitAuthority s
  { scheme, authority, path, query, fragment }

/-! ## A text is the one of its components -/

/-- Host and port together are the text they were split from. -/
theorem text_splitHostPort (s : List Char) : (splitHostPort s).1 ++ after ':' (splitHostPort s).2 = s := by
  unfold splitHostPort
  split
  · have htext := text_cut ']' s
    split
    · rename_i address hcut
      rw [hcut] at htext
      simpa [after] using htext
    · rename_i address port hcut
      rw [hcut] at htext
      simpa [after] using htext
    · exact List.append_nil s
  · exact text_cut ':' s

/-- The parts of an authority together are the text they were split from. -/
theorem Authority.text_split (s : List Char) : (Authority.split s).text = s := by
  have htext := text_cut '@' s
  unfold Authority.split
  split
  · exact text_splitHostPort s
  · rename_i userinfo rest hcut
    rw [hcut] at htext
    rw [Authority.text, List.append_assoc]
    dsimp only
    rw [text_splitHostPort rest]
    simpa [before, after] using htext

/-- The scheme and what follows it are the text they were split from. -/
theorem text_splitScheme (s : List Char) : before ':' (splitScheme s).1 ++ (splitScheme s).2 = s := by
  have htext := text_cut ':' s
  unfold splitScheme
  split
  · rename_i scheme rest hcut
    rw [hcut] at htext
    split
    · rfl
    · simpa [before, after] using htext
  · rfl

/-- The authority and what follows it are the text they were split from. -/
theorem text_splitAuthority (s : List Char) :
    authorityText (splitAuthority s).1 ++ (splitAuthority s).2 = s := by
  unfold splitAuthority
  split
  · rename_i s
    simp only [authorityText, Authority.text_split, List.cons_append, List.takeWhile_append_dropWhile]
  · rfl

/-- The parts of a reference together are the text they were split from. -/
theorem Reference.text_split (s : List Char) : (Reference.split s).text = s := by
  have hfragment := text_cut '#' s
  have hquery := text_cut '?' (cut '#' s).1
  have hscheme := text_splitScheme (cut '?' (cut '#' s).1).1
  have hauthority := text_splitAuthority (splitScheme (cut '?' (cut '#' s).1).1).2
  rw [Reference.text, Reference.split]
  dsimp only
  rw [List.append_assoc (before _ _), hauthority, hscheme, hquery, hfragment]

/-! ## The components of a text are those it is made of -/

/-- The characters before a delimiter, and the delimiter. -/
theorem mem_before {component : Option (List Char)} (h : c ∈ before delim component) :
    (∃ s ∈ component, c ∈ s) ∨ c = delim := by
  cases component with
  | none => cases h
  | some s =>
    rcases List.mem_append.mp h with h | h
    · exact Or.inl ⟨s, rfl, h⟩
    · exact Or.inr (List.mem_singleton.mp h)

/-- The delimiter, and the characters after it. -/
theorem mem_after {component : Option (List Char)} (h : c ∈ after delim component) :
    (∃ s ∈ component, c ∈ s) ∨ c = delim := by
  cases component with
  | none => cases h
  | some s =>
    rcases List.mem_cons.mp h with h | h
    · exact Or.inr h
    · exact Or.inl ⟨s, rfl, h⟩

theorem isDigit_of_mem_port {port : Option (List Char)} (h : port.all (·.all Char.isDigit) = true) :
    ∀ s ∈ port, ∀ c ∈ s, c.isDigit = true := by
  rintro s rfl c hc
  exact List.all_eq_true.mp h c hc

namespace Authority

variable {a : Authority}

/-- Host and port have none of the delimiters before and after them. -/
theorem not_mem_hostPort {host : List Char} (hhost : G.host host = true) {port : Option (List Char)}
    (hport : port.all (·.all Char.isDigit) = true) :
    ∀ d ∈ ['@', '/', '?', '#'], d ∉ host ++ after ':' port := by
  intro d hd hmem
  have hother : ∀ d ∈ ['@', '/', '?', '#'], d.isDigit = false ∧ d ≠ ':' :=
    forall_mem_of_all (by decide)
  obtain ⟨hdigit, hcolon⟩ := hother d hd
  rcases List.mem_append.mp hmem with hmem | hmem
  · exact G.host_delims host hhost d hd hmem
  · rcases mem_after hmem with ⟨s, hs, hmem⟩ | heq
    · rw [isDigit_of_mem_port hport s hs d hmem] at hdigit
      cases hdigit
    · exact hcolon heq

/-- The authority ends at the delimiters that it does not have. -/
theorem WellFormed.not_mem_text (h : a.WellFormed G) : ∀ d ∈ ['/', '?', '#'], d ∉ a.text := by
  obtain ⟨huserinfo, hhost, hport⟩ := h
  intro d hd hmem
  have hdelim : d ∈ ['@', '/', '?', '#'] := List.mem_cons_of_mem _ hd
  have hother : ∀ d ∈ ['/', '?', '#'], d ≠ '@' := forall_mem_of_all (by decide)
  rw [text, List.append_assoc] at hmem
  rcases List.mem_append.mp hmem with hmem | hmem
  · rcases mem_before hmem with ⟨s, hs, hmem⟩ | heq
    · rw [hs] at huserinfo
      exact G.userinfo_delims s huserinfo d hdelim hmem
    · exact hother d hd heq
  · exact not_mem_hostPort hhost hport d hdelim hmem

/-- A host of the grammar is split from its port, even if it has colons of its own. -/
theorem splitHostPort_text {host : List Char} (hhost : G.host host = true) (port : Option (List Char)) :
    splitHostPort (host ++ after ':' port) = (host, port) := by
  unfold splitHostPort
  rcases G.host_colon host hhost with ⟨address, rfl, hclosing⟩ | ⟨hcolon, hopening⟩
  · have htext : '[' :: address ++ [']'] ++ after ':' port
        = '[' :: address ++ after ']' (some (after ':' port)) := by
      simp [after]
    have hnot : ']' ∉ '[' :: address := by
      rw [List.mem_cons, not_or]
      exact ⟨by decide, hclosing⟩
    have hhead : ('[' :: address ++ after ']' (some (after ':' port))).head? = some '[' := rfl
    rw [htext, cut_append hnot, if_pos hhead]
    cases port with
    | none => rfl
    | some port => rfl
  · have hhead : (host ++ after ':' port).head? ≠ some '[' := by
      cases host with
      | nil =>
        cases port with
        | none => nofun
        | some port =>
          intro h
          exact absurd (Option.some.inj h) (by decide)
      | cons c host =>
        intro h
        exact hopening (Option.some.inj h ▸ List.mem_cons_self)
    rw [if_neg hhead, cut_append hcolon]

/-- A well-formed authority is split into the parts it was put together from. -/
theorem split_text (h : a.WellFormed G) : split a.text = a := by
  obtain ⟨huserinfo, hhost, hport⟩ := h
  obtain ⟨userinfo, host, port⟩ := a
  cases userinfo with
  | none =>
    have hat : '@' ∉ host ++ after ':' port := not_mem_hostPort hhost hport '@' (by decide)
    show split (host ++ after ':' port) = _
    rw [split, cut_eq_of_not_mem hat]
    dsimp only
    rw [splitHostPort_text hhost]
  | some userinfo =>
    have hat : '@' ∉ userinfo := G.userinfo_delims userinfo huserinfo '@' (by decide)
    have htext : text ⟨some userinfo, host, port⟩ = userinfo ++ after '@' (some (host ++ after ':' port)) := by
      simp [text, before, after]
    rw [htext, split, cut_append hat]
    dsimp only
    rw [splitHostPort_text hhost]

end Authority

/-- A scheme of the grammar is split from what follows it. -/
theorem splitScheme_text {scheme : Option (List Char)} (hscheme : scheme.all G.scheme = true)
    {rest : List Char} (hrest : scheme = none → ':' ∉ rest.takeWhile (· ≠ '/')) :
    splitScheme (before ':' scheme ++ rest) = (scheme, rest) := by
  cases scheme with
  | some scheme =>
    have hdelims := G.scheme_delims scheme hscheme
    have hne : ¬ (scheme = [] ∨ '/' ∈ scheme) := by
      rintro (rfl | hslash)
      · rw [Option.all_some, G.scheme_nil] at hscheme
        cases hscheme
      · exact hdelims '/' (by decide) hslash
    have htext : before ':' (some scheme) ++ rest = scheme ++ after ':' (some rest) := by
      simp [before, after]
    rw [htext, splitScheme, cut_append (hdelims ':' (by decide))]
    dsimp only
    rw [if_neg hne]
  | none =>
    have htext := text_cut ':' rest
    show splitScheme rest = _
    unfold splitScheme
    split
    · rename_i first more hcut
      rw [hcut] at htext
      rw [if_pos]
      by_contra hno
      rw [not_or] at hno
      -- the colon would be in the first segment
      refine hrest rfl ?_
      have hslash : '/' ∉ first ++ [':'] := by
        rw [List.mem_append, not_or]
        exact ⟨hno.2, by decide⟩
      have hsplit : rest = first ++ [':'] ++ more := by
        rw [← htext]
        simp [after]
      rw [hsplit, List.takeWhile_append_of_pos (forall_ne_of_not_mem hslash)]
      simp
    · rfl

/-- A well-formed authority is split from the path. -/
theorem splitAuthority_text {authority : Option Authority}
    (hauthority : authority.all (fun a => a.WellFormed G) = true) {path : List Char}
    (hpath : authority.isSome = true → ∀ c ∈ path.head?, c = '/')
    (honly : authority = none → ¬ ['/', '/'] <+: path) :
    splitAuthority (authorityText authority ++ path) = (authority, path) := by
  cases authority with
  | none =>
    show splitAuthority path = _
    unfold splitAuthority
    split
    · rename_i path
      exact absurd (List.prefix_append ['/', '/'] path) (honly rfl)
    · rfl
  | some a =>
    have ha : a.WellFormed G := by simpa using hauthority
    have hslash := forall_ne_of_not_mem (ha.not_mem_text '/' (by decide))
    show (some (Authority.split ((a.text ++ path).takeWhile _)), (a.text ++ path).dropWhile _) = _
    rw [List.takeWhile_append_of_pos hslash, List.dropWhile_append_of_pos hslash]
    cases path with
    | nil => simp [Authority.split_text ha]
    | cons c path =>
      have hc := hpath rfl c rfl
      subst hc
      simp [Authority.split_text ha]

namespace Reference

variable {u : Reference}

/-- Query and fragment start at their delimiters. -/
theorem WellFormed.not_mem_front (h : u.WellFormed G) : ∀ d ∈ ['?', '#'],
    d ∉ before ':' u.scheme ++ (authorityText u.authority ++ u.path) := by
  intro d hd hmem
  have hother : ∀ d ∈ ['?', '#'], d ∈ [':', '/', '?', '#'] ∧ d ∈ ['/', '?', '#'] ∧ d ≠ ':' ∧ d ≠ '/' :=
    forall_mem_of_all (by decide)
  obtain ⟨hscheme, hauthority, hcolon, hslash⟩ := hother d hd
  rcases List.mem_append.mp hmem with hmem | hmem
  · rcases mem_before hmem with ⟨s, hs, hmem⟩ | heq
    · have hs' := h.scheme
      rw [hs] at hs'
      exact G.scheme_delims s hs' d hscheme hmem
    · exact hcolon heq
  · rcases List.mem_append.mp hmem with hmem | hmem
    · cases ha : u.authority with
      | none =>
        rw [ha] at hmem
        cases hmem
      | some a =>
        have hwell : a.WellFormed G := by simpa [ha] using h.authority
        rw [ha, authorityText, List.mem_cons, List.mem_cons] at hmem
        rcases hmem with heq | heq | hmem
        · exact hslash heq
        · exact hslash heq
        · exact hwell.not_mem_text d hauthority hmem
    · exact G.path_delims u.path h.path d hd hmem

/-- A query ends where the fragment begins. -/
theorem WellFormed.not_mem_query (h : u.WellFormed G) : '#' ∉ after '?' u.query := by
  intro hmem
  rcases mem_after hmem with ⟨s, hs, hmem⟩ | heq
  · have hs' := h.query
    rw [hs] at hs'
    exact G.query_delims s hs' hmem
  · exact absurd heq (by decide)

/-- A colon before the first slash would end a scheme. -/
theorem WellFormed.colon_not_mem (h : u.WellFormed G) (hscheme : u.scheme = none) :
    ':' ∉ (authorityText u.authority ++ u.path).takeWhile (· ≠ '/') := by
  cases ha : u.authority with
  | none => exact h.path_noscheme hscheme ha
  | some a =>
    rw [authorityText, List.cons_append, List.takeWhile_cons_of_neg (by simp)]
    exact List.not_mem_nil

/-- A well-formed reference is split into the parts it was put together from. -/
theorem split_text (h : u.WellFormed G) : split u.text = u := by
  have hfragment : cut '#' u.text
      = (before ':' u.scheme ++ (authorityText u.authority ++ u.path) ++ after '?' u.query, u.fragment) := by
    rw [text, List.append_assoc (before _ _)]
    refine cut_append ?_ u.fragment
    rw [List.mem_append, not_or]
    exact ⟨h.not_mem_front '#' (by decide), h.not_mem_query⟩
  have hquery := cut_append (h.not_mem_front '?' (by decide)) u.query
  have hscheme := splitScheme_text h.scheme h.colon_not_mem
  have hauthority := splitAuthority_text h.authority h.path_authority h.path_only
  rw [split]
  dsimp only
  rw [hfragment]
  dsimp only
  rw [hquery]
  dsimp only
  rw [hscheme]
  dsimp only
  rw [hauthority]

end Reference

/-! ## Parsing -/

def parse (G : Grammar) (s : List Char) : Option Reference :=
  if (Reference.split s).WellFormed G then some (Reference.split s) else none

/-- The texts that are accepted are those of the well-formed references. -/
theorem parse_eq_some_iff {u : Reference} : parse G s = some u ↔ u.WellFormed G ∧ u.text = s := by
  unfold parse
  constructor
  · intro h
    split at h
    · rename_i hwell
      cases h
      exact ⟨hwell, Reference.text_split s⟩
    · cases h
  · rintro ⟨hwell, rfl⟩
    rw [Reference.split_text hwell, if_pos hwell]

/-! ## Ports and origins -/

namespace Reference

variable {u : Reference}

/-- Another port. A reference without an authority gets one, and an absolute path. -/
def setPort (digits : List Char) (u : Reference) : Reference :=
  { u with
    authority := some { u.authority.getD { host := [] } with port := some digits }
    path := if u.authority.isNone ∧ u.path ≠ [] ∧ u.path.head? ≠ some '/' then '/' :: u.path else u.path }

/-- A port of digits keeps a reference well formed. -/
theorem WellFormed.setPort (h : u.WellFormed G) {digits : List Char}
    (hdigits : digits.all Char.isDigit = true) : (u.setPort digits).WellFormed G where
  scheme := h.scheme
  authority := by
    cases ha : u.authority with
    | none => simp [Reference.setPort, ha, Authority.WellFormed, G.host_nil, hdigits]
    | some a =>
      have hwell : a.WellFormed G := by simpa [ha] using h.authority
      simp [Reference.setPort, ha, Authority.WellFormed, hwell.1, hwell.2.1, hdigits]
  path := by
    unfold Reference.setPort
    dsimp only
    split
    · exact G.path_slash _ h.path
    · exact h.path
  query := h.query
  fragment := h.fragment
  path_authority := by
    intro _ c hc
    unfold Reference.setPort at hc
    dsimp only at hc
    split at hc
    · exact (Option.some.inj hc).symm
    · rename_i hpath
      cases ha : u.authority with
      | some a => exact h.path_authority (by simp [ha]) c hc
      | none =>
        by_contra hne
        refine hpath ⟨by simp [ha], ?_, ?_⟩
        · rintro hnil
          rw [hnil] at hc
          cases hc
        · rw [hc, ne_eq, Option.some.injEq]
          exact hne
  path_only := nofun
  path_noscheme := nofun

/-- The origin of a well-formed reference is one. -/
theorem WellFormed.origin (h : u.WellFormed G) (ha : u.authority.isSome = true) :
    u.origin.WellFormed G where
  scheme := h.scheme
  authority := h.authority
  path := G.path_nil
  query := rfl
  fragment := rfl
  path_authority := nofun
  path_only := by
    intro hnone
    rw [Option.isSome_iff_ne_none] at ha
    exact absurd hnone ha
  path_noscheme := by
    intro _ hnone
    rw [Option.isSome_iff_ne_none] at ha
    exact absurd hnone ha

/-- Only an authority has a port. -/
theorem isSome_authority_of_port (h : u.port.isSome = true) : u.authority.isSome = true := by
  cases ha : u.authority with
  | none => simp [port, ha] at h
  | some a => rfl

end Reference

/-! ## The classes of RFC 3986 -/

def isUnreserved (c : Char) : Bool := c.isAlphanum || "-._~".toList.contains c

def isSubDelim (c : Char) : Bool := "!$&'()*+,;=".toList.contains c

def isHexDigit (c : Char) : Bool := c.isDigit || ('a' ≤ c && c ≤ 'f') || ('A' ≤ c && c ≤ 'F')

/-- Characters of a class and percent-encoded octets. -/
def isEncoded (plain : Char → Bool) : List Char → Bool
  | [] => true
  | '%' :: a :: b :: s => isHexDigit a && isHexDigit b && isEncoded plain s
  | c :: s => plain c && isEncoded plain s

/-- An encoded text has plain characters and escapes. -/
theorem mem_isEncoded {plain : Char → Bool} (h : isEncoded plain s = true) :
    ∀ c ∈ s, c = '%' ∨ isHexDigit c = true ∨ plain c = true := by
  fun_induction isEncoded plain s with
  | case1 => simp
  | case2 a b s ih =>
    simp only [Bool.and_eq_true] at h
    intro c hc
    rcases List.mem_cons.mp hc with rfl | hc
    · exact Or.inl rfl
    rcases List.mem_cons.mp hc with rfl | hc
    · exact Or.inr (Or.inl h.1.1)
    rcases List.mem_cons.mp hc with rfl | hc
    · exact Or.inr (Or.inl h.1.2)
    · exact ih h.2 c hc
  | case3 c s _ ih =>
    rw [Bool.and_eq_true] at h
    intro d hd
    rcases List.mem_cons.mp hd with rfl | hd
    · exact Or.inr (Or.inr h.1)
    · exact ih h.2 d hd

/-- A delimiter that is in no class is not in the component. -/
theorem not_mem_of_isEncoded {plain : Char → Bool} (h : isEncoded plain s = true) {d : Char}
    (hd : (d = '%' || isHexDigit d || plain d) = false) : d ∉ s := by
  intro hmem
  have hclass := mem_isEncoded h d hmem
  simp only [Bool.or_eq_false_iff, decide_eq_false_iff_not] at hd
  rcases hclass with heq | hhex | hplain
  · exact hd.1.1 heq
  · rw [hd.1.2] at hhex
    cases hhex
  · rw [hd.2] at hplain
    cases hplain

def isSchemeChar (c : Char) : Bool := c.isAlphanum || "+-.".toList.contains c

def isUserinfoChar (c : Char) : Bool := isUnreserved c || isSubDelim c || c = ':'

def isNameChar (c : Char) : Bool := isUnreserved c || isSubDelim c

def isPathChar (c : Char) : Bool := isUnreserved c || isSubDelim c || c = ':' || c = '@' || c = '/'

def isQueryChar (c : Char) : Bool := isPathChar c || c = '?'

def isAddressChar (c : Char) : Bool := isHexDigit c || c = ':' || c = '.'

def isScheme : List Char → Bool
  | [] => false
  | c :: s => c.isAlpha && s.all isSchemeChar

/-- An address between brackets, of which only the characters are looked at. -/
def isLiteral : List Char → Bool
  | '[' :: s => s.getLast? = some ']' && !s.dropLast.isEmpty && s.dropLast.all isAddressChar
  | _ => false

def isHost (s : List Char) : Bool := isEncoded isNameChar s || isLiteral s

/-- An address literal stands in brackets. -/
theorem exists_of_isLiteral (h : isLiteral s = true) :
    ∃ address, s = '[' :: address ++ [']'] ∧ ∀ c ∈ address, isAddressChar c = true := by
  unfold isLiteral at h
  split at h
  · rename_i s
    simp only [Bool.and_eq_true, decide_eq_true_iff] at h
    obtain ⟨address, rfl⟩ := List.getLast?_eq_some_iff.mp h.1.1
    rw [List.dropLast_concat] at h
    exact ⟨address, rfl, List.all_eq_true.mp h.2⟩
  · cases h

/-- A host has none of the delimiters that end it. -/
theorem isHost_delims (h : isHost s = true) : ∀ d ∈ ['@', '/', '?', '#'], d ∉ s := by
  intro d hd hmem
  have hdelims : ∀ d ∈ ['@', '/', '?', '#'],
      (d = '%' || isHexDigit d || isNameChar d) = false ∧ isAddressChar d = false ∧ d ≠ '[' ∧ d ≠ ']' :=
    forall_mem_of_all (by decide)
  obtain ⟨hname, haddress, hopening, hclosing⟩ := hdelims d hd
  rcases Bool.or_eq_true _ _ |>.mp h with h | h
  · exact not_mem_of_isEncoded h hname hmem
  · obtain ⟨address, rfl, hall⟩ := exists_of_isLiteral h
    rcases List.mem_append.mp hmem with hmem | hmem
    · rcases List.mem_cons.mp hmem with heq | hmem
      · exact hopening heq
      · rw [hall d hmem] at haddress
        cases haddress
    · exact hclosing (List.mem_singleton.mp hmem)

/-- A host with a colon is an address in brackets. -/
theorem isHost_colon (h : isHost s = true) : IsBracketed s ∨ ':' ∉ s ∧ '[' ∉ s := by
  rcases Bool.or_eq_true _ _ |>.mp h with h | h
  · exact Or.inr ⟨not_mem_of_isEncoded h (by decide), not_mem_of_isEncoded h (by decide)⟩
  · obtain ⟨address, rfl, hall⟩ := exists_of_isLiteral h
    refine Or.inl ⟨address, rfl, fun hmem => ?_⟩
    exact absurd (hall ']' hmem) (by decide)

/-- A scheme has none of the delimiters. -/
theorem isScheme_delims (h : isScheme s = true) : ∀ d ∈ [':', '/', '?', '#'], d ∉ s := by
  intro d hd hmem
  have hdelims : ∀ d ∈ [':', '/', '?', '#'], d.isAlpha = false ∧ isSchemeChar d = false :=
    forall_mem_of_all (by decide)
  obtain ⟨halpha, hchar⟩ := hdelims d hd
  cases s with
  | nil => cases hmem
  | cons c s =>
    rw [isScheme, Bool.and_eq_true] at h
    rcases List.mem_cons.mp hmem with rfl | hmem
    · rw [h.1] at halpha
      cases halpha
    · rw [List.all_eq_true.mp h.2 d hmem] at hchar
      cases hchar

/-- The grammar of RFC 3986, but for the addresses between brackets. -/
def Grammar.rfc3986 : Grammar where
  scheme := isScheme
  userinfo := isEncoded isUserinfoChar
  host := isHost
  path := isEncoded isPathChar
  query := isEncoded isQueryChar
  fragment := isEncoded isQueryChar
  scheme_nil := rfl
  scheme_delims _ := isScheme_delims
  userinfo_delims _ h := by
    have hdelims : ∀ d ∈ ['@', '/', '?', '#'], (d = '%' || isHexDigit d || isUserinfoChar d) = false :=
      forall_mem_of_all (by decide)
    exact fun d hd => not_mem_of_isEncoded h (hdelims d hd)
  host_nil := rfl
  host_delims _ := isHost_delims
  host_colon _ := isHost_colon
  path_nil := rfl
  path_slash s h := by
    have hslash : isPathChar '/' = true := by decide
    rw [isEncoded, hslash, h]
    · rfl
    · nofun
  path_delims _ h := by
    have hdelims : ∀ d ∈ ['?', '#'], (d = '%' || isHexDigit d || isPathChar d) = false :=
      forall_mem_of_all (by decide)
    exact fun d hd => not_mem_of_isEncoded h (hdelims d hd)
  query_delims _ h := not_mem_of_isEncoded h (by decide)

end MacdTradingBot.Uri
