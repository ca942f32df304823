import Etch.Java.UrlEscaping
import Etch.Java.UrlPairs

/-!
# Printing a `URL` and parsing it again

What a `URL` is printed as has the escaped fields as its pieces, provided that
no slash of a host, user or password and no two slashes in front of the uri
are mistaken for delimiters.  The pieces stand for the low bytes of the
characters, so that the fields come back if they have no others.
-/

namespace Etch.Java.Url

open Etch.Library.Fallible
open Etch.Library.Splitting
open StringUtil

/-! ## What is printed -/

/-- The params behind the first semicolon. -/
def paramsText (url : Url) : Option JavaString :=
  if url.hasParams then
    some ([char ';'].intercalate (url.getParams.map (escape ∘ some)))
  else none

/-- A name and a value. -/
def termText (pair : JavaString × JavaString) : JavaString :=
  escape (some pair.1) ++ char '=' :: escape (some pair.2)

/-- The terms behind the question mark. -/
def termsText (pairs : List (JavaString × JavaString)) : Option JavaString :=
  if pairs = [] then none
  else some ([char '&'].intercalate (pairs.map termText))

/-- The port behind the colon. -/
def portText (url : Url) : Option JavaString :=
  url.port.map fun port => decimal port.val

/-- `[user[:password]@]host[:port]` -/
def authorityText (url : Url) (host : JavaString) : JavaString :=
  url.userToString ++ joined (char ':') (escape (some host))
    url.portText

/-- `[//[user[:password]@]host[:port]/]uri` -/
def uriText (url : Url) (uri : JavaString) : JavaString :=
  match url.host with
  | none => escape (some uri)
  | some host => text "//" ++ joined (char '/') (url.authorityText host)
      (some (escape (some uri)))

theorem paramsToString_eq {url : Url} (has : url.hasParams = true) :
    url.paramsToString = char ';' ::
      [char ';'].intercalate (url.getParams.map (escape ∘ some)) := by
  unfold hasParams at has
  unfold paramsToString getParams
  cases found : url.params with
  | none =>
      rw [found] at has
      exact nomatch has
  | some params =>
      rw [found] at has
      rw [Option.getD_some]
      cases params with
      | nil => exact nomatch has
      | cons param params =>
          clear has found
          induction params generalizing param with
          | nil => simp
          | cons next params ih =>
              rw [List.flatMap_cons, ih next]
              simp [List.intercalate_cons_cons]

theorem termsFrom_eq {pairs : List (JavaString × JavaString)}
    (some' : pairs ≠ []) (sep : UInt16) :
    termsFrom sep pairs =
      sep :: [char '&'].intercalate (pairs.map termText) := by
  induction pairs generalizing sep with
  | nil => exact absurd rfl some'
  | cons pair pairs ih =>
      obtain ⟨n, v⟩ := pair
      rw [termsFrom]
      cases pairs with
      | nil => simp [termsFrom, termText]
      | cons next pairs =>
          rw [ih (List.cons_ne_nil next pairs)]
          simp [List.intercalate_cons_cons, termText]

theorem hasTerms_iff {terms : Terms} {pairs : List (JavaString × JavaString)}
    (made : terms = addPairs none pairs) :
    terms.hasTerms = true ↔ pairs ≠ [] := by
  cases pairs with
  | nil =>
      rw [made]
      exact iff_of_false nofun (· rfl)
  | cons pair pairs =>
      refine iff_of_true ?_ (List.cons_ne_nil pair pairs)
      have mem : pair.2 ∈ terms.values pair.1 := by
        rw [made, values_addPairs]
        exact List.mem_cons_self
      cases terms with
      | none => exact absurd mem List.not_mem_nil
      | some terms =>
          refine decide_eq_true fun empty => ?_
          subst empty
          exact absurd mem List.not_mem_nil

/-- A `URL` that has come from a string has a scheme and a uri, its port, user
and password belong to a host, and its terms are made of names and values. -/
structure Shaped (url : Url) (scheme uri : JavaString)
    (pairs : List (JavaString × JavaString)) : Prop where
  scheme : url.scheme = some scheme
  uri : url.uri = some uri
  hostless : url.host = none → Hostless url
  userless : url.user = none → url.password = none
  paramless : url.params ≠ some []
  paramNamed : url.params ≠ some [[]]
  made : url.terms = addPairs none pairs
  named : ∀ pair ∈ pairs, pair.1 ≠ []

section

variable {url : Url} {scheme uri : JavaString}
    {pairs : List (JavaString × JavaString)}

theorem hostToString_append {host : JavaString}
    (has : url.host = some host) (rest : JavaString) :
    url.hostToString ++ rest =
      text "//" ++ joined (char '/') (url.authorityText host) (some rest) := by
  rw [hostToString, has]
  cases found : url.port with
  | none => simp [authorityText, portText, found]
  | some port => simp [authorityText, portText, found]

/-- What is printed is made of the texts of the fields. -/
theorem toString_eq (shaped : Shaped url scheme uri pairs)
    (order : KeyOrder url.terms) :
    url.toString order =
      escape (some scheme) ++ char ':' ::
        joined (char '#')
          (joined (char '?')
            (joined (char ';') (url.uriText uri) url.paramsText)
            (termsText order.pairs))
          (url.fragment.map (escape ∘ some)) := by
  have uriText : url.uriText uri =
      url.hostToString ++ escape (some uri) := by
    unfold Url.uriText
    cases found : url.host with
    | none => simp [hostToString, found]
    | some host => exact (hostToString_append found _).symm
  have params : joined (char ';') (url.uriText uri) url.paramsText =
      url.uriText uri ++
        (if url.hasParams then url.paramsToString else []) := by
    unfold paramsText
    split_ifs with has
    · rw [joined_some, paramsToString_eq has]
    · rw [joined_none, List.append_nil]
  have terms (front : JavaString) :
      joined (char '?') front (termsText order.pairs) =
        front ++
          (if url.terms.hasTerms then url.termsToString order else []) := by
    have empty : order.pairs = [] ↔ pairs = [] := by
      rw [List.eq_nil_iff_forall_not_mem, List.eq_nil_iff_forall_not_mem]
      exact forall_congr' fun pair =>
        not_congr (order.mem_pairs shaped.made pair)
    unfold termsText
    by_cases none : pairs = []
    · rw [if_pos (empty.mpr none), if_neg (fun has =>
        (hasTerms_iff shaped.made).mp has none), joined_none,
        List.append_nil]
    · rw [if_neg (fun nil => none (empty.mp nil)),
        if_pos ((hasTerms_iff shaped.made).mpr none), joined_some,
        termsToString, termsFrom_eq (fun nil => none (empty.mp nil))]
  rw [toString, terms, params, uriText, shaped.scheme, shaped.uri]
  cases url.fragment with
  | none => simp
  | some fragment => simp

/-! ## The pieces of what is printed -/

theorem mem_decimal {n : ℕ} {c : UInt16} (mem : c ∈ decimal n) :
    c ∈ text "0123456789" := by
  obtain ⟨d, mem', rfl⟩ := List.mem_map.mp mem
  have digit : d.isDigit = true :=
    Nat.isDigit_of_mem_toDigits (b := 10) (by decide) (by decide) mem'
  simp only [Char.isDigit, Bool.and_eq_true, decide_eq_true_eq] at digit
  obtain ⟨least, most⟩ := digit
  have least' : 48 ≤ d.toNat := least
  have most' : d.toNat ≤ 57 := most
  unfold char
  interval_cases d.toNat <;> decide

theorem not_mem_decimal {d : UInt16} (delimiter : d ∈ text ":#?;@&=/")
    (n : ℕ) : d ∉ decimal n := by
  have delimiters : ∀ d ∈ text ":#?;@&=/", d ∉ text "0123456789" :=
    forall_mem_of_all (by decide)
  exact fun mem => delimiters d delimiter (mem_decimal mem)

theorem not_mem_termText {d : UInt16} (delimiter : d ∈ text "#?;&")
    (pair : JavaString × JavaString) : d ∉ termText pair := by
  have delimiters : ∀ d ∈ text "#?;&", d ∈ text ":#?;@&=" ∧ d ≠ char '=' :=
    forall_mem_of_all (by decide)
  obtain ⟨delimiter, other⟩ := delimiters d delimiter
  change d ∉ joined (char '=') (escape (some pair.1))
    (some (escape (some pair.2)))
  refine not_mem_joined other (not_mem_escape delimiter _) ?_
  rintro _ ⟨⟩
  exact not_mem_escape delimiter _

theorem not_mem_intercalate {d c : UInt16} (other : d ≠ c)
    {texts : List JavaString} (free : ∀ s ∈ texts, d ∉ s) :
    d ∉ [c].intercalate texts := by
  induction texts with
  | nil => exact List.not_mem_nil
  | cons s texts ih =>
      have rest := ih fun s mem => free s (List.mem_cons_of_mem _ mem)
      have first := free s List.mem_cons_self
      cases texts with
      | nil => simpa using first
      | cons s' texts =>
          rw [List.intercalate_cons_cons]
          simp only [List.mem_append, List.mem_singleton, not_or]
          exact ⟨⟨first, other⟩, rest⟩

theorem not_mem_paramsText {d : UInt16} (delimiter : d ∈ text "#?") :
    ∀ s ∈ url.paramsText, d ∉ s := by
  have delimiters : ∀ d ∈ text "#?", d ∈ text ":#?;@&=" ∧ d ≠ char ';' :=
    forall_mem_of_all (by decide)
  obtain ⟨delimiter, other⟩ := delimiters d delimiter
  unfold paramsText
  split_ifs
  · rintro _ ⟨⟩
    refine not_mem_intercalate other fun s mem => ?_
    obtain ⟨w, -, rfl⟩ := List.mem_map.mp mem
    exact not_mem_escape delimiter w
  · exact nofun

theorem not_mem_userToString {d : UInt16} (delimiter : d ∈ text "#?;") :
    d ∉ url.userToString := by
  have delimiters : ∀ d ∈ text "#?;",
      d ∈ text ":#?;@&=" ∧ d ≠ char ':' ∧ d ≠ char '@' :=
    forall_mem_of_all (by decide)
  obtain ⟨delimiter, colon, at'⟩ := delimiters d delimiter
  unfold userToString
  cases url.user with
  | none => exact List.not_mem_nil
  | some user =>
      cases url.password with
      | none => simp [not_mem_escape delimiter, at']
      | some password => simp [not_mem_escape delimiter, colon, at']

theorem not_mem_uriText {d : UInt16} (delimiter : d ∈ text "#?;")
    (uri : JavaString) : d ∉ url.uriText uri := by
  have delimiters : ∀ d ∈ text "#?;",
      d ∈ text ":#?;@&=" ∧ d ∈ text ":#?;@&=/" ∧ d ≠ char ':' ∧
        d ≠ char '/' ∧ d ∉ text "//" :=
    forall_mem_of_all (by decide)
  obtain ⟨among, among', colon, slash, slashes⟩ := delimiters d delimiter
  unfold uriText
  cases url.host with
  | none => exact not_mem_escape among uri
  | some host =>
      rw [List.mem_append, not_or]
      refine ⟨slashes, not_mem_joined slash ?_ ?_⟩
      · rw [authorityText, List.mem_append, not_or]
        refine ⟨not_mem_userToString delimiter, not_mem_joined colon
          (not_mem_escape among host) fun port mem => ?_⟩
        obtain ⟨n, -, rfl⟩ := Option.mem_map.mp mem
        exact not_mem_decimal among' n
      · rintro _ ⟨⟩
        exact not_mem_escape among uri

theorem pieces_toString (shaped : Shaped url scheme uri pairs)
    (order : KeyOrder url.terms) :
    pieces (url.toString order) =
      some (uriPieces (outerPieces (escape (some scheme)) url.paramsText
        (termsText order.pairs) (url.fragment.map (escape ∘ some)))
        (url.uriText uri)) := by
  have params (s : JavaString) (mem : s ∈ url.paramsText) :
      char '#' ∉ s ∧ char '?' ∉ s :=
    ⟨not_mem_paramsText (by decide) s mem,
      not_mem_paramsText (by decide) s mem⟩
  have terms (s : JavaString) (mem : s ∈ termsText order.pairs) :
      char '#' ∉ s := by
    unfold termsText at mem
    split_ifs at mem with none
    · exact nomatch mem
    obtain rfl := Option.mem_some_iff.mp mem
    refine not_mem_intercalate (by decide) fun s mem => ?_
    obtain ⟨pair, -, rfl⟩ := List.mem_map.mp mem
    exact not_mem_termText (by decide) pair
  have free : char '#' ∉ joined (char '?')
      (joined (char ';') (url.uriText uri) url.paramsText)
      (termsText order.pairs) :=
    not_mem_joined (by decide) (not_mem_joined (by decide)
      (not_mem_uriText (by decide) uri) fun s mem => (params s mem).1) terms
  have free' : char '?' ∉
      joined (char ';') (url.uriText uri) url.paramsText :=
    not_mem_joined (by decide) (not_mem_uriText (by decide) uri)
      fun s mem => (params s mem).2
  rw [toString_eq shaped, pieces,
    cut_append (not_mem_escape (by decide) scheme)]
  dsimp only
  rw [restPieces, cut_joined free, cut_joined free',
    cut_joined (not_mem_uriText (by decide) uri)]

/-- The escaped fields. -/
def printed (url : Url) (scheme uri : JavaString)
    (pairs : List (JavaString × JavaString)) : Pieces where
  scheme := escape (some scheme)
  user := url.user.map (escape ∘ some)
  password := url.password.map (escape ∘ some)
  host := url.host.map (escape ∘ some)
  port := url.portText
  uri := escape (some uri)
  params := url.params.map (List.map (escape ∘ some))
  terms := pairs.map fun pair =>
    (escape (some pair.1), escape (some pair.2))
  fragment := url.fragment.map (escape ∘ some)

theorem paramPieces_paramsText (paramless : url.params ≠ some [])
    (paramNamed : url.params ≠ some [[]]) :
    paramPieces url.paramsText =
      url.params.map (List.map (escape ∘ some)) := by
  unfold paramsText hasParams getParams
  cases found : url.params with
  | none => rfl
  | some params =>
      rw [found] at paramless paramNamed
      have positive : 0 < params.length :=
        List.length_pos_iff.mpr fun nil => paramless (by rw [nil])
      rw [Option.getD_some, if_pos (by simpa using positive), paramPieces]
      have free : ∀ s ∈ params.map (escape ∘ some), char ';' ∉ s := by
        intro s mem
        obtain ⟨w, -, rfl⟩ := List.mem_map.mp mem
        exact not_mem_escape (by decide) w
      have nonempty : params.map (escape ∘ some) ≠ [] :=
        List.ne_nil_of_length_pos (by simpa using positive)
      have split := List.splitOn_intercalate (char ';') free nonempty
      rw [if_neg ?_, split]
      · rfl
      · intro nil
        rw [nil, List.splitOn_nil] at split
        cases params with
        | nil => exact paramless rfl
        | cons w params =>
            simp only [List.map_cons, List.cons.injEq, Function.comp_apply]
              at split
            obtain rfl := List.map_eq_nil_iff.mp split.2.symm
            exact paramNamed (by rw [escape_eq_nil_iff.mp split.1.symm])

theorem termPieces_termsText :
    termPieces (termsText pairs) = pairs.map fun pair =>
      (escape (some pair.1), escape (some pair.2)) := by
  unfold termsText
  split_ifs with none
  · rw [none]
    rfl
  · have free : ∀ s ∈ pairs.map termText, char '&' ∉ s := by
      intro s mem
      obtain ⟨pair, -, rfl⟩ := List.mem_map.mp mem
      exact not_mem_termText (by decide) pair
    have some' : pairs.map termText ≠ [] := by simpa using none
    have nonempty : ∀ s ∈ pairs.map termText, s ≠ [] := by
      intro s mem
      obtain ⟨pair, -, rfl⟩ := List.mem_map.mp mem
      simp [termText]
    rw [termPieces, List.splitOn_intercalate _ free some',
      List.filter_eq_self.mpr (by simpa using nonempty), List.map_map]
    refine List.map_congr_left fun pair _ => ?_
    rw [Function.comp_apply, termPiece, termText,
      cut_append (not_mem_escape (by decide) _)]
    rfl

/-- The user, the password and the host have no slash, and a uri without a
host does not begin with two. -/
structure Delimited (url : Url) : Prop where
  user : ∀ w ∈ url.user, char '/' ∉ w
  password : ∀ w ∈ url.password, char '/' ∉ w
  host : ∀ w ∈ url.host, char '/' ∉ w
  uri : url.host = none →
    ∀ w ∈ url.uri, ¬ (text "//").isPrefixOf w = true

theorem userToString_eq {user : JavaString} (found : url.user = some user) :
    url.userToString =
      joined (char ':') (escape (some user))
        (url.password.map (escape ∘ some)) ++ [char '@'] := by
  rw [userToString, found]
  cases url.password with
  | none => simp
  | some password => simp

theorem authorityPieces_authorityText (shaped : Shaped url scheme uri pairs)
    (host : JavaString) (pieces : Pieces)
    (unsplit : Unsplit pieces) :
    authorityPieces pieces (url.authorityText host) =
      { pieces with
        user := url.user.map (escape ∘ some)
        password := url.password.map (escape ∘ some)
        host := some (escape (some host))
        port := url.portText } := by
  have free : char '@' ∉ joined (char ':') (escape (some host))
      url.portText := by
    refine not_mem_joined (by decide) (not_mem_escape (by decide) host) ?_
    intro port mem
    obtain ⟨n, -, rfl⟩ := Option.mem_map.mp mem
    exact not_mem_decimal (by decide) n
  have hostPort : cut (char ':') (joined (char ':') (escape (some host))
      url.portText) =
        (escape (some host), url.portText) :=
    cut_joined (not_mem_escape (by decide) host) _
  unfold authorityPieces authorityText
  cases found : url.user with
  | none =>
      rw [userToString, found, shaped.userless found]
      dsimp only
      rw [List.nil_append, cut_eq_self free]
      dsimp only [hostPieces]
      rw [hostPort, unsplit.user, unsplit.password]
      rfl
  | some user =>
      have free' : char '@' ∉ joined (char ':') (escape (some user))
          (url.password.map (escape ∘ some)) := by
        refine not_mem_joined (by decide)
          (not_mem_escape (by decide) user) ?_
        intro s mem
        obtain ⟨w, -, rfl⟩ := Option.mem_map.mp mem
        exact not_mem_escape (by decide) w
      rw [userToString_eq found, List.append_assoc, List.singleton_append,
        cut_append free']
      dsimp only [hostPieces]
      rw [hostPort, cut_joined (not_mem_escape (by decide) user)]
      rfl

/-- A slash of the user, the password or the host is one that is printed. -/
theorem slash_mem_authorityText (shaped : Shaped url scheme uri pairs)
    (host : JavaString) :
    char '/' ∉ url.authorityText host ↔
      (∀ w ∈ url.user, char '/' ∉ w) ∧ (∀ w ∈ url.password, char '/' ∉ w) ∧
        char '/' ∉ host := by
  have port : char '/' ∉ joined (char ':') (escape (some host))
      url.portText ↔ char '/' ∉ host := by
    rw [← @slash_mem_escape host]
    constructor
    · intro free mem
      refine free ?_
      cases url.portText with
      | none => exact mem
      | some port => exact List.mem_append_left _ mem
    · intro free
      refine not_mem_joined (by decide) free fun port mem => ?_
      obtain ⟨n, -, rfl⟩ := Option.mem_map.mp mem
      exact not_mem_decimal (by decide) n
  have others : char '/' ≠ char ':' ∧ char '/' ≠ char '@' := by decide
  rw [authorityText, List.mem_append, not_or, port, userToString,
    ← and_assoc]
  refine and_congr_left fun _ => ?_
  cases found : url.user with
  | none => simp [shaped.userless found]
  | some user =>
      cases url.password with
      | none => simp [slash_mem_escape, others.2]
      | some password => simp [slash_mem_escape, others.1, others.2]

/-- Where the delimiters are the right ones, the pieces are the escaped
fields. -/
theorem uriPieces_uriText (shaped : Shaped url scheme uri pairs)
    (delimited : Delimited url) (pieces : Pieces) (unsplit : Unsplit pieces) :
    uriPieces pieces (url.uriText uri) =
      { pieces with
        user := url.user.map (escape ∘ some)
        password := url.password.map (escape ∘ some)
        host := url.host.map (escape ∘ some)
        port := url.portText
        uri := escape (some uri) } := by
  unfold uriPieces uriText
  cases found : url.host with
  | none =>
      have hostless := shaped.hostless found
      have other : ¬ (text "//").isPrefixOf (escape (some uri)) = true := by
        rw [escape_begins_iff]
        exact delimited.uri found uri shaped.uri
      rw [if_neg other]
      simp only [hostless.user, hostless.password, portText, hostless.port,
        Option.map_none, unsplit.user, unsplit.password, unsplit.host,
        unsplit.port]
  | some host =>
      have free : char '/' ∉ url.authorityText host :=
        (slash_mem_authorityText shaped host).mpr
          ⟨delimited.user, delimited.password, delimited.host host found⟩
      have begins (s : JavaString) :
          (text "//").isPrefixOf (text "//" ++ s) = true :=
        List.isPrefixOf_iff_prefix.mpr (List.prefix_append _ s)
      have rest (s : JavaString) : (text "//" ++ s).drop 2 = s := rfl
      dsimp only
      rw [if_pos (begins _), rest, cut_joined free]
      dsimp only [Option.getD_some]
      rw [authorityPieces_authorityText shaped host
        { pieces with uri := escape (some uri) }
        ⟨unsplit.user, unsplit.password, unsplit.host, unsplit.port⟩]
      rfl

theorem pieces_toString_of_delimited (shaped : Shaped url scheme uri pairs)
    (delimited : Delimited url) (order : KeyOrder url.terms) :
    pieces (url.toString order) =
      some (url.printed scheme uri order.pairs) := by
  rw [pieces_toString shaped, uriPieces_uriText shaped delimited _
    ⟨rfl, rfl, rfl, rfl⟩]
  unfold outerPieces printed
  rw [paramPieces_paramsText shaped.paramless shaped.paramNamed,
    termPieces_termsText]

/-! ## Reading what is printed -/

/-- No character is more than a byte. -/
def Narrowed (w : JavaString) : Prop :=
  ∀ c ∈ w, c < 256

theorem unescape_escape_iff {w : JavaString} :
    unescape (escape (some w)) = .ok w ↔ Narrowed w := by
  rw [unescape_of_tokens (tokens_escape w), Except.ok.injEq]
  exact narrowed_eq_iff

theorem denotes_escape {value : Option JavaString} :
    Denotes (value.map (escape ∘ some)) value ↔
      ∀ w ∈ value, Narrowed w := by
  cases value with
  | none => exact iff_of_true .none nofun
  | some w =>
      rw [Option.map_some, Function.comp_apply, denotes_some]
      constructor
      · rintro ⟨_, read, ⟨⟩⟩ _ ⟨⟩
        exact unescape_escape_iff.mp read
      · intro narrow
        exact ⟨w, unescape_escape_iff.mpr (narrow w rfl), rfl⟩

theorem denotesParams_escape {params : Option (List JavaString)} :
    DenotesParams (params.map (List.map (escape ∘ some))) params ↔
      ∀ w ∈ params.getD [], Narrowed w := by
  have each (params : List JavaString) :
      List.Forall₂ (fun piece value => unescape piece = .ok value)
          (params.map (escape ∘ some)) params ↔
        ∀ w ∈ params, Narrowed w := by
    induction params with
    | nil => simp
    | cons w params ih =>
        rw [List.map_cons, List.forall₂_cons, List.forall_mem_cons, ih]
        exact and_congr_left fun _ => unescape_escape_iff
  cases params with
  | none => exact iff_of_true .none nofun
  | some params =>
      rw [Option.map_some, Option.getD_some, ← each]
      constructor
      · rintro ⟨denotes⟩
        exact denotes
      · exact .some

/-- What is printed of a name and a value stands for their low bytes. -/
theorem forall₂_escape {printed read : List (JavaString × JavaString)}
    (named : ∀ pair ∈ printed, pair.1 ≠ []) :
    List.Forall₂ DenotesTerm
        (printed.map fun pair =>
          (escape (some pair.1), escape (some pair.2))) read ↔
      read = printed.map fun pair => (narrowed pair.1, narrowed pair.2) := by
  have term (pair other : JavaString × JavaString) (named : pair.1 ≠ []) :
      DenotesTerm (escape (some pair.1), escape (some pair.2)) other ↔
        other = (narrowed pair.1, narrowed pair.2) := by
    have name := unescape_of_tokens (tokens_escape pair.1)
    have value := unescape_of_tokens (tokens_escape pair.2)
    constructor
    · intro denotes
      refine Prod.ext ?_ ?_
      · exact Except.ok.inj (denotes.name.symm.trans name)
      · exact Except.ok.inj (denotes.value.symm.trans value)
    · rintro rfl
      exact ⟨name, value, by simpa [narrowed] using named⟩
  induction printed generalizing read with
  | nil => exact List.forall₂_nil_left_iff
  | cons pair printed ih =>
      have first := named pair List.mem_cons_self
      have rest (others : List (JavaString × JavaString)) :=
        @ih others fun pair mem => named pair (List.mem_cons_of_mem _ mem)
      rw [List.map_cons, List.forall₂_cons_left_iff, List.map_cons]
      constructor
      · rintro ⟨other, others, denotes, denotes', rfl⟩
        rw [(term pair other first).mp denotes, (rest others).mp denotes']
      · rintro rfl
        exact ⟨_, _, (term pair _ first).mpr rfl, (rest _).mpr rfl, rfl⟩

theorem denotesTerms_escape {terms : Terms} (made : terms = addPairs none pairs)
    (named : ∀ pair ∈ pairs, pair.1 ≠ []) (order : KeyOrder terms) :
    DenotesTerms (order.pairs.map fun pair =>
        (escape (some pair.1), escape (some pair.2))) terms ↔
      ∀ pair ∈ pairs, Narrowed pair.1 ∧ Narrowed pair.2 := by
  have mem := order.mem_pairs made
  have named' : ∀ pair ∈ order.pairs, pair.1 ≠ [] :=
    fun pair printed => named pair ((mem pair).mp printed)
  unfold DenotesTerms
  simp only [forall₂_escape named', exists_eq_left]
  constructor
  · rintro again ⟨name, value⟩ added
    have found : value ∈ (addPairs none (order.pairs.map fun pair =>
        (narrowed pair.1, narrowed pair.2))).values name := by
      rw [← again, made, values_addPairs]
      exact added
    rw [values_addPairs] at found
    obtain ⟨pair, -, same⟩ := List.mem_map.mp found
    obtain ⟨rfl, rfl⟩ := Prod.mk.inj same
    have byte (c : UInt16) : c % 256 < 256 := by
      rw [UInt16.lt_iff_toNat_lt, UInt16.toNat_mod]
      exact Nat.mod_lt _ (by decide)
    have narrow (w : JavaString) : Narrowed (narrowed w) := by
      intro c mem
      obtain ⟨d, -, rfl⟩ := List.mem_map.mp mem
      exact byte d
    exact ⟨narrow _, narrow _⟩
  · intro narrow
    have same : (order.pairs.map fun pair =>
        (narrowed pair.1, narrowed pair.2)) = order.pairs := by
      refine (List.map_congr_left fun pair printed => ?_).trans
        (List.map_id _)
      obtain ⟨name, value⟩ := narrow pair ((mem pair).mp printed)
      exact Prod.ext (narrowed_eq_iff.mpr name) (narrowed_eq_iff.mpr value)
    rw [same]
    exact (order.addPairs_pairs made).symm

/-! ## The port -/

theorem number_decimal (digits : Digits) (n : ℕ) :
    digits.number (decimal n) = some n := by
  have fold (l : List Char) (isDigit : ∀ d ∈ l, d.isDigit = true)
      (sum : ℕ) :
      (l.map char).foldlM (fun sum c => (digits.digit c).map (10 * sum + ·))
        sum = some (Nat.ofDigitChars 10 l sum) := by
    induction l generalizing sum with
    | nil => rfl
    | cons d l ih =>
        have value : digits.digit (char d) =
            some (d.toNat - '0'.toNat) := by
          have digit := isDigit d List.mem_cons_self
          simp only [Char.isDigit, Bool.and_eq_true, decide_eq_true_eq]
            at digit
          obtain ⟨least, most⟩ := digit
          have least' : 48 ≤ d.toNat := least
          have most' : d.toNat ≤ 57 := most
          have ascii (n : ℕ) (least : 48 ≤ n) (most : n ≤ 57) :
              digits.digit n.toUInt16 = some (n - 48) := by
            rw [digits.ascii _ (by interval_cases n <;> decide)]
            interval_cases n <;> decide
          exact ascii d.toNat least' most'
        rw [List.map_cons, List.foldlM_cons, value, Nat.ofDigitChars_cons]
        exact ih (fun d mem => isDigit d (List.mem_cons_of_mem _ mem)) _
  rw [Digits.number, if_neg (by simp [decimal]), decimal,
    fold _ (fun d mem =>
      Nat.isDigit_of_mem_toDigits (b := 10) (by decide) (by decide) mem),
    Nat.ofDigitChars_ten_toDigits]

theorem parseInt_decimal (digits : Digits) {n : ℕ} (small : n < 2 ^ 31) :
    digits.parseInt (decimal n) = some (n : ℤ) := by
  have number := number_decimal digits n
  cases printed : decimal n with
  | nil =>
      rw [printed] at number
      exact nomatch number
  | cons c rest =>
      have signs : ∀ c ∈ text "0123456789", c ≠ char '-' ∧ c ≠ char '+' :=
        forall_mem_of_all (by decide)
      have mem : c ∈ decimal n := by
        rw [printed]
        exact List.mem_cons_self
      obtain ⟨minus, plus⟩ := signs c (mem_decimal mem)
      rw [printed] at number
      rw [Digits.parseInt]
      rw [if_neg minus, if_neg plus, number]
      dsimp only
      rw [if_pos small]

theorem unescape_decimal (n : ℕ) :
    unescape (decimal n) = .ok (decimal n) := by
  have plain (s : JavaString) (digits : ∀ c ∈ s, c ∈ text "0123456789") :
      Tokens s s := by
    have others : ∀ c ∈ text "0123456789",
        c ≠ char '%' ∧ c ≠ char '+' := forall_mem_of_all (by decide)
    induction s with
    | nil => exact .nil
    | cons c s ih =>
        obtain ⟨percent, plus⟩ := others c (digits c List.mem_cons_self)
        have first := Tokens.plain percent
          (ih fun c mem => digits c (List.mem_cons_of_mem _ mem))
        rwa [if_neg plus] at first
  exact unescape_of_tokens (plain _ fun c => mem_decimal)

theorem denotesPort_portText (digits : Digits) :
    DenotesPort digits url.portText url.port := by
  unfold portText
  cases url.port with
  | none => exact .none
  | some port =>
      have small := port.isLt
      exact .some ⟨_, unescape_decimal port.val,
        parseInt_decimal digits (by omega)⟩

/-! ## Delimiters in the wrong places -/

/-- A host is set wherever there is an authority. -/
theorem authorityPieces_host (pieces : Pieces) (s : JavaString) :
    (authorityPieces pieces s).host ≠ none := by
  unfold authorityPieces
  split
  · exact nofun
  · exact nofun

/-- The slash that is found is not the one that has been printed as a
delimiter, so that another uri or a host comes back. -/
theorem not_reads_of_not_delimited {digits : Digits} {start : Pieces}
    (shaped : Shaped url scheme uri pairs) (mistaken : ¬ Delimited url) :
    ¬ Reads digits (uriPieces start (url.uriText uri)) url := by
  intro reads
  cases found : url.host with
  | none =>
      have hostless := shaped.hostless found
      have begins : (text "//").isPrefixOf uri = true := by
        by_contra other
        refine mistaken ⟨?_, ?_, ?_, ?_⟩
        · simp [hostless.user]
        · simp [hostless.password]
        · simp [found]
        · intro _ w mem
          rw [shaped.uri, Option.mem_some_iff] at mem
          rwa [← mem]
      have host := reads.host
      rw [uriText, found, uriPieces] at host
      dsimp only at host
      rw [if_pos (escape_begins_iff.mpr begins)] at host
      cases split : (authorityPieces
          { start with uri := (cut (char '/')
            ((escape (some uri)).drop 2)).2.getD [] }
          (cut (char '/') ((escape (some uri)).drop 2)).1).host with
      | none => exact authorityPieces_host _ _ split
      | some piece =>
          rw [split] at host
          cases host
  | some host =>
      have slash : char '/' ∈ url.authorityText host := by
        by_contra free
        obtain ⟨user, password, free⟩ :=
          (slash_mem_authorityText shaped host).mp free
        refine mistaken ⟨user, password, ?_, ?_⟩
        · intro w mem
          rw [found, Option.mem_some_iff] at mem
          rwa [← mem]
        · rw [found]
          rintro ⟨⟩
      have piece := reads.uri
      have begins (s : JavaString) :
          (text "//").isPrefixOf (text "//" ++ s) = true :=
        List.isPrefixOf_iff_prefix.mpr (List.prefix_append _ s)
      have rest (s : JavaString) : (text "//" ++ s).drop 2 = s := rfl
      rw [uriText, found, uriPieces] at piece
      dsimp only at piece
      obtain ⟨back, parts⟩ := cut_append_of_mem slash
        (char '/' :: escape (some uri))
      rw [if_pos (begins _), authorityPieces_uri, rest, joined_some, parts,
        Option.getD_some, denotes_some, shaped.uri] at piece
      obtain ⟨_, read, ⟨⟩⟩ := piece
      obtain ⟨w₁, w₂, -, back', same⟩ :=
        (tokens_of_unescape read).append (by decide) (by decide) (by decide)
      have low : w₂ = narrowed uri :=
        Except.ok.inj ((unescape_of_tokens back').symm.trans
          (unescape_of_tokens (tokens_escape uri)))
      have sizes := congrArg List.length same
      rw [low, narrowed, List.length_append, List.length_cons,
        List.length_map] at sizes
      omega

/-! ## The round trip -/

/-- All pieces but the port. -/
def Pieces.texts (pieces : Pieces) : List JavaString :=
  [pieces.scheme, pieces.uri] ++ pieces.user.toList ++
    pieces.password.toList ++ pieces.host.toList ++
    pieces.fragment.toList ++ pieces.params.getD [] ++
    pieces.terms.flatMap fun term => [term.1, term.2]

/-- The pieces that are printed in front of a slash. -/
def Pieces.authorityTexts (pieces : Pieces) : List JavaString :=
  pieces.user.toList ++ pieces.password.toList ++ pieces.host.toList

/-- The string is not empty; outside of the port, no character and no escape
sequence stands for more than a byte; neither the user nor the password nor
the host has an escaped slash; and without a host the uri does not begin with
two slashes. -/
def Kept (s : JavaString) : Prop :=
  match pieces s with
  | none => False
  | some pieces =>
      (∀ s ∈ pieces.texts, Narrow s) ∧
        (∀ s ∈ pieces.authorityTexts, SlashFree s) ∧
        (pieces.host = none → ¬ BeginsWithSlashes pieces.uri)

/-- All texts of a `URL`. -/
def texts (url : Url) (pairs : List (JavaString × JavaString)) :
    List JavaString :=
  url.scheme.toList ++ url.uri.toList ++ url.user.toList ++
    url.password.toList ++ url.host.toList ++ url.fragment.toList ++
    url.params.getD [] ++ pairs.flatMap fun pair => [pair.1, pair.2]

theorem Denotes.toList {piece value : Option JavaString}
    (denotes : Denotes piece value) :
    List.Forall₂ Tokens piece.toList value.toList := by
  cases denotes with
  | none => exact .nil
  | some read => exact .cons (tokens_of_unescape read) .nil

theorem Denotes.none_iff {piece value : Option JavaString}
    (denotes : Denotes piece value) : piece = none ↔ value = none := by
  cases denotes with
  | none => exact Iff.rfl
  | some read => exact iff_of_false nofun nofun

theorem DenotesParams.getD {pieces values : Option (List JavaString)}
    (denotes : DenotesParams pieces values) :
    List.Forall₂ Tokens (pieces.getD []) (values.getD []) := by
  cases denotes with
  | none => exact .nil
  | some read => exact read.imp fun _ _ => tokens_of_unescape

theorem forall₂_flatMap {pieces pairs : List (JavaString × JavaString)}
    (denotes : List.Forall₂ DenotesTerm pieces pairs) :
    List.Forall₂ Tokens (pieces.flatMap fun term => [term.1, term.2])
      (pairs.flatMap fun pair => [pair.1, pair.2]) := by
  induction denotes with
  | nil => exact .nil
  | cons term _ ih =>
      exact .cons (tokens_of_unescape term.name)
        (.cons (tokens_of_unescape term.value) ih)

theorem forall₂_exists {pieces pairs : List (JavaString × JavaString)}
    (denotes : List.Forall₂ DenotesTerm pieces pairs)
    {pair : JavaString × JavaString} (mem : pair ∈ pairs) :
    ∃ piece ∈ pieces, DenotesTerm piece pair := by
  induction denotes with
  | nil => exact nomatch mem
  | @cons piece other _ _ term _ ih =>
      rcases List.mem_cons.mp mem with rfl | mem
      · exact ⟨piece, List.mem_cons_self, term⟩
      · obtain ⟨piece', mem', term'⟩ := ih mem
        exact ⟨piece', List.mem_cons_of_mem _ mem', term'⟩

theorem forall_mem_iff {good : JavaString → Prop}
    {good' : JavaString → Prop} {pieces values : List JavaString}
    (tokens : List.Forall₂ Tokens pieces values)
    (same : ∀ s w, Tokens s w → (good s ↔ good' w)) :
    (∀ s ∈ pieces, good s) ↔ ∀ w ∈ values, good' w := by
  induction tokens with
  | nil => exact iff_of_true nofun nofun
  | cons first _ ih =>
      rw [List.forall_mem_cons, List.forall_mem_cons, same _ _ first, ih]

theorem Reads.narrow_iff {digits : Digits} {found : Pieces}
    (reads : Reads digits found url)
    (terms : List.Forall₂ DenotesTerm found.terms pairs) :
    (∀ s ∈ found.texts, Narrow s) ↔ ∀ w ∈ url.texts pairs, Narrowed w := by
  have tokens : List.Forall₂ Tokens found.texts (url.texts pairs) :=
    List.rel_append (List.rel_append (List.rel_append (List.rel_append
      (List.rel_append (List.rel_append (List.rel_append
        reads.scheme.toList reads.uri.toList) reads.user.toList)
        reads.password.toList) reads.host.toList) reads.fragment.toList)
        reads.params.getD) (forall₂_flatMap terms)
  exact forall_mem_iff tokens fun s w tokens => tokens.narrow_iff.symm

theorem Reads.delimited_iff {digits : Digits} {found : Pieces}
    (reads : Reads digits found url) :
    Delimited url ↔ (∀ s ∈ found.authorityTexts, SlashFree s) ∧
      (found.host = none → ¬ BeginsWithSlashes found.uri) := by
  have tokens : List.Forall₂ Tokens found.authorityTexts
      (url.user.toList ++ url.password.toList ++ url.host.toList) :=
    List.rel_append (List.rel_append reads.user.toList
      reads.password.toList) reads.host.toList
  have slashes := forall_mem_iff tokens fun s w tokens =>
    tokens.slashFree_iff.symm
  obtain ⟨uri, read, same⟩ := denotes_some.mp reads.uri
  have begins := (tokens_of_unescape read).beginsWithSlashes_iff
  have host := reads.host.none_iff
  rw [slashes, host, ← begins]
  constructor
  · intro delimited
    refine ⟨?_, fun none => delimited.uri none uri same⟩
    intro w mem
    simp only [List.mem_append, Option.mem_toList] at mem
    rcases mem with (mem | mem) | mem
    · exact delimited.user w mem
    · exact delimited.password w mem
    · exact delimited.host w mem
  · rintro ⟨free, unbegun⟩
    simp only [List.mem_append, Option.mem_toList] at free
    refine ⟨fun w mem => free w (.inl (.inl mem)),
      fun w mem => free w (.inl (.inr mem)), fun w mem => free w (.inr mem),
      fun none w mem => ?_⟩
    rw [same, Option.mem_some_iff] at mem
    exact mem ▸ unbegun none

/-- The escaped fields stand for the fields if these have low bytes only. -/
theorem reads_printed_iff {digits : Digits} {found : Pieces}
    (shaped : Shaped url scheme uri pairs) (reads : Reads digits found url)
    (order : KeyOrder url.terms) :
    Reads digits (url.printed scheme uri order.pairs) url ↔
      ∀ w ∈ url.texts pairs, Narrowed w := by
  have one {value : JavaString} {field : Option JavaString}
      (same : field = some value) :
      Denotes (some (escape (some value))) field ↔
        ∀ w ∈ field, Narrowed w := by
    rw [same]
    exact @denotes_escape (some value)
  have terms := denotesTerms_escape shaped.made shaped.named order
  have parts : (∀ w ∈ url.texts pairs, Narrowed w) ↔
      (∀ w ∈ url.scheme, Narrowed w) ∧ (∀ w ∈ url.uri, Narrowed w) ∧
        (∀ w ∈ url.user, Narrowed w) ∧ (∀ w ∈ url.password, Narrowed w) ∧
        (∀ w ∈ url.host, Narrowed w) ∧ (∀ w ∈ url.fragment, Narrowed w) ∧
        (∀ w ∈ url.params.getD [], Narrowed w) ∧
        ∀ pair ∈ pairs, Narrowed pair.1 ∧ Narrowed pair.2 := by
    have each : (∀ w ∈ pairs.flatMap fun pair => [pair.1, pair.2],
        Narrowed w) ↔ ∀ pair ∈ pairs, Narrowed pair.1 ∧ Narrowed pair.2 := by
      simp only [List.mem_flatMap]
      constructor
      · intro all pair mem
        exact ⟨all _ ⟨pair, mem, by simp⟩, all _ ⟨pair, mem, by simp⟩⟩
      · rintro all w ⟨pair, mem, part⟩
        rcases List.mem_cons.mp part with rfl | part
        · exact (all pair mem).1
        · obtain rfl := List.mem_singleton.mp part
          exact (all pair mem).2
    simp only [texts, List.forall_mem_append, Option.mem_toList, each,
      and_assoc]
    exact Iff.rfl
  rw [parts]
  constructor
  · intro printed
    exact ⟨(one shaped.scheme).mp printed.scheme,
      (one shaped.uri).mp printed.uri, denotes_escape.mp printed.user,
      denotes_escape.mp printed.password, denotes_escape.mp printed.host,
      denotes_escape.mp printed.fragment,
      denotesParams_escape.mp printed.params, terms.mp printed.terms⟩
  · rintro ⟨scheme', uri', user, password, host, fragment, params, pairs'⟩
    exact ⟨(one shaped.scheme).mpr scheme', denotes_escape.mpr user,
      denotes_escape.mpr password, denotes_escape.mpr host,
      denotesPort_portText digits, (one shaped.uri).mpr uri',
      denotesParams_escape.mpr params, terms.mpr pairs',
      denotes_escape.mpr fragment, reads.schemeNamed, reads.userNamed,
      reads.hostNamed, reads.fragmentNamed⟩

theorem uriPieces_shape {start : Pieces} (unsplit : Unsplit start)
    (s : JavaString) :
    ((uriPieces start s).host = none → Unsplit (uriPieces start s)) ∧
      ((uriPieces start s).user = none →
        (uriPieces start s).password = none) := by
  unfold uriPieces
  split_ifs
  · refine ⟨fun none => absurd none (authorityPieces_host _ _), ?_⟩
    unfold authorityPieces
    split
    · exact nofun
    · exact fun _ => unsplit.password
  · exact ⟨fun _ => ⟨unsplit.user, unsplit.password, unsplit.host,
      unsplit.port⟩, fun _ => unsplit.password⟩

theorem paramPieces_ne (piece : Option JavaString) :
    paramPieces piece ≠ some [] ∧ paramPieces piece ≠ some [[]] := by
  cases piece with
  | none => exact ⟨by rintro ⟨⟩, by rintro ⟨⟩⟩
  | some s =>
      rw [paramPieces]
      split_ifs with empty
      · exact ⟨by rintro ⟨⟩, by rintro ⟨⟩⟩
      · refine ⟨fun same => ?_, fun same => empty ?_⟩
        · exact List.splitOn_ne_nil _ _ (Option.some.inj same)
        · have whole :=
            @List.intercalate_splitOn _ s _ _ (char ';')
          rw [Option.some.inj same] at whole
          exact whole.symm

theorem DenotesParams.ne {pieces values : Option (List JavaString)}
    (denotes : DenotesParams pieces values)
    (some' : pieces ≠ some [] ∧ pieces ≠ some [[]]) :
    values ≠ some [] ∧ values ≠ some [[]] := by
  cases denotes with
  | none => exact ⟨nofun, nofun⟩
  | some read =>
      constructor
      · rintro ⟨⟩
        cases read
        exact some'.1 rfl
      · rintro ⟨⟩
        rcases read with - | ⟨first, ⟨⟩⟩
        cases tokens_of_unescape first
        exact some'.2 rfl

/-- A `URL` that has been read is shaped like one. -/
theorem Reads.shaped {digits : Digits} {s : JavaString} {found : Pieces}
    (reads : Reads digits found url) (split : pieces s = some found) :
    ∃ scheme uri pairs, Shaped url scheme uri pairs ∧
      List.Forall₂ DenotesTerm found.terms pairs := by
  obtain ⟨scheme, -, scheme'⟩ := denotes_some.mp reads.scheme
  obtain ⟨uri, -, uri'⟩ := denotes_some.mp reads.uri
  obtain ⟨pairs, terms, made⟩ := reads.terms
  obtain ⟨start, rest, unsplit, params, rfl⟩ : ∃ start rest,
      Unsplit start ∧ (∃ piece, start.params = paramPieces piece) ∧
        uriPieces start rest = found := by
    unfold pieces at split
    split at split
    · exact ⟨_, _, ⟨rfl, rfl, rfl, rfl⟩, ⟨_, rfl⟩, Option.some.inj split⟩
    · exact nomatch split
  obtain ⟨hostless, userless⟩ := uriPieces_shape unsplit rest
  have params' : url.params ≠ some [] ∧ url.params ≠ some [[]] := by
    obtain ⟨piece, params⟩ := params
    refine reads.params.ne ?_
    rw [(uriPieces_rest start rest).2.1, params]
    exact paramPieces_ne piece
  refine ⟨scheme, uri, pairs, ⟨scheme', uri', ?_, ?_, params'.1, params'.2,
    made, ?_⟩, terms⟩
  · intro none
    have none' := hostless (reads.host.none_iff.mpr none)
    refine ⟨reads.user.none_iff.mp none'.user,
      reads.password.none_iff.mp none'.password, none, ?_⟩
    exact denotesPort_none.mp (none'.port ▸ reads.port)
  · intro none
    exact reads.password.none_iff.mp
      (userless (reads.user.none_iff.mpr none))
  · intro pair mem
    obtain ⟨piece, -, denotes⟩ := forall₂_exists terms mem
    exact denotes.named

theorem parse_toString_iff {digits : Digits} {found : Pieces}
    (shaped : Shaped url scheme uri pairs) (reads : Reads digits found url)
    (order : KeyOrder url.terms) :
    parse digits (url.toString order) = .ok url ↔
      Delimited url ∧ ∀ w ∈ url.texts pairs, Narrowed w := by
  rw [parse_eq_ok_iff]
  by_cases delimited : Delimited url
  · rw [pieces_toString_of_delimited shaped delimited]
    simp only [Option.some_inj, exists_eq_left', delimited, true_and]
    exact reads_printed_iff shaped reads order
  · rw [pieces_toString shaped]
    simp only [Option.some_inj, exists_eq_left', delimited, false_and,
      iff_false]
    exact not_reads_of_not_delimited shaped delimited

end

/-- A string that is accepted comes back from what its `URL` is printed as, in
whatever order the names of the terms are, if and only if it is kept. -/
theorem round_trip_iff (digits : Digits) {s : JavaString} {url : Url}
    (accepted : ofString digits (some s) = .ok url)
    (order : KeyOrder url.terms) :
    ofString digits (some (url.toString order)) = .ok url ↔ Kept s := by
  have printed : 0 < (url.toString order).length := by
    unfold toString
    simp only [List.length_append, List.length_cons]
    omega
  rw [ofString, if_pos printed]
  cases s with
  | nil =>
      obtain rfl := Except.ok.inj accepted
      refine iff_of_false (fun parsed => ?_) id
      obtain ⟨found, -, reads⟩ := parse_eq_ok_iff.mp parsed
      exact nomatch reads.scheme
  | cons c s =>
      rw [ofString, if_pos (by simp), parse_eq_ok_iff] at accepted
      obtain ⟨found, split, reads⟩ := accepted
      obtain ⟨scheme, uri, pairs, shaped, terms⟩ := reads.shaped split
      rw [parse_toString_iff shaped reads order, Kept, split,
        reads.delimited_iff, ← reads.narrow_iff terms, and_comm]

/-- The order of no names. -/
def KeyOrder.empty : KeyOrder none :=
  ⟨[], .nil, fun _ => iff_of_false List.not_mem_nil nofun⟩

/-- A `URL` with a user, a port and an escaped blank comes back. -/
theorem kept_tcp : Kept (text "tcp://u:p@a:80/b%20c#d") := by
  have accepted : ofString asciiDigits (some (text "tcp://u:p@a:80/b%20c#d")) =
      .ok { scheme := some (text "tcp"), user := some (text "u")
            password := some (text "p"), host := some (text "a")
            port := some 80, uri := some (text "b c")
            fragment := some (text "d") } := by
    decide +kernel
  exact (round_trip_iff asciiDigits accepted KeyOrder.empty).mp
    (by decide +kernel)

/-- An upper case escape sequence is read as a character that is no byte, and
printed as one that is. -/
theorem upper_changes :
    ¬ ∀ (s : JavaString) (url : Url),
      ofString asciiDigits (some s) = .ok url →
      ∀ order : KeyOrder url.terms,
        ofString asciiDigits (some (url.toString order)) = .ok url := by
  intro comesBack
  have accepted : ofString asciiDigits (some (text "x:%4A")) =
      .ok { scheme := some (text "x"), uri := some [0xffea] } := by
    decide +kernel
  exact absurd (comesBack _ _ accepted KeyOrder.empty) (by decide +kernel)

end Etch.Java.Url
