import Etch.Java.Url
import Etch.Library.Splitting

/-!
# What a string says about a `URL`

A string is taken apart into the pieces between its delimiters, before
anything is unescaped.  It is accepted if every piece can be unescaped, the
names are not blank and the port is a number; then the pieces are the fields.
-/

namespace Etch.Java

open Etch.Library.Fallible
open Etch.Library.Splitting
open StringUtil

theorem StringUtil.leftSplit_eq (s : JavaString) (c : UInt16) :
    leftSplit s c = (cut c s).2.map fun back => ((cut c s).1, back) := by
  unfold leftSplit
  induction s with
  | nil => rfl
  | cons first s ih =>
      rw [List.idxOf?_cons, cut]
      by_cases same : first = c
      · simp [same]
      · rw [if_neg same, if_neg (by simpa using same)]
        cases found : s.idxOf? c with
        | none =>
            rw [found] at ih
            cases behind : (cut c s).2 with
            | none => rfl
            | some back =>
                rw [behind] at ih
                cases ih
        | some i =>
            rw [found] at ih
            cases behind : (cut c s).2 with
            | none =>
                rw [behind] at ih
                cases ih
            | some back =>
                rw [behind] at ih
                simp only [Option.map_some, Option.some.injEq,
                  Prod.mk.injEq] at ih
                simp [ih.1, ih.2]

theorem StringUtil.leftSplit_of_cut {s front : JavaString} {c : UInt16}
    {back : Option JavaString} (parts : cut c s = (front, back)) :
    leftSplit s c = back.map fun back => (front, back) := by
  rw [leftSplit_eq, parts]

namespace Url

/-! ## The pieces -/

/-- The pieces of a string, as they stand there. -/
structure Pieces where
  scheme : JavaString
  user : Option JavaString
  password : Option JavaString
  host : Option JavaString
  port : Option JavaString
  uri : JavaString
  params : Option (List JavaString)
  terms : List (JavaString × JavaString)
  fragment : Option JavaString

/-- `param[;param]*`, or nothing at all. -/
def paramPieces : Option JavaString → Option (List JavaString)
  | none => none
  | some s => if s = [] then none else some (s.splitOn (char ';'))

/-- `name[=value]` -/
def termPiece (s : JavaString) : JavaString × JavaString :=
  ((cut (char '=') s).1, (cut (char '=') s).2.getD [])

/-- `term[&term]*`, of which the empty ones do not count. -/
def termPieces : Option JavaString → List (JavaString × JavaString)
  | none => []
  | some s => ((s.splitOn (char '&')).filter (· ≠ [])).map termPiece

/-- `host[:port]` without a user. -/
def hostPieces (pieces : Pieces) (s : JavaString) : Pieces :=
  { pieces with
    host := some (cut (char ':') s).1
    port := (cut (char ':') s).2 }

/-- `[user[:password]@]host[:port]` -/
def authorityPieces (pieces : Pieces) (s : JavaString) : Pieces :=
  match cut (char '@') s with
  | (userPassword, some hostPort) =>
      hostPieces { pieces with
        user := some (cut (char ':') userPassword).1
        password := (cut (char ':') userPassword).2 } hostPort
  | (hostPort, none) => hostPieces pieces hostPort

/-- `[//[user[:password]@]host[:port]/]uri` -/
def uriPieces (pieces : Pieces) (s : JavaString) : Pieces :=
  if (text "//").isPrefixOf s then
    authorityPieces
      { pieces with uri := (cut (char '/') (s.drop 2)).2.getD [] }
      (cut (char '/') (s.drop 2)).1
  else
    { pieces with uri := s }

/-- The pieces around `[//[user[:password]@]host[:port]/]uri`. -/
def outerPieces (scheme : JavaString)
    (params terms fragment : Option JavaString) : Pieces where
  scheme := scheme
  user := none
  password := none
  host := none
  port := none
  uri := []
  params := paramPieces params
  terms := termPieces terms
  fragment := fragment

/-- The pieces behind the scheme. -/
def restPieces (scheme s : JavaString) : Pieces :=
  let fragment := cut (char '#') s
  let terms := cut (char '?') fragment.1
  let params := cut (char ';') terms.1
  uriPieces (outerPieces scheme params.2 terms.2 fragment.2) params.1

/-- The pieces of a string that has a scheme. -/
def pieces (s : JavaString) : Option Pieces :=
  match cut (char ':') s with
  | (scheme, some rest) => some (restPieces scheme rest)
  | (_, none) => none

/-! ## What the pieces stand for -/

/-- A piece, if there is one, stands for a value. -/
def Denotes : Option JavaString → Option JavaString → Prop :=
  Option.Rel fun piece value => unescape piece = .ok value

def DenotesPort (digits : Digits) :
    Option JavaString → Option (Fin 65536) → Prop :=
  Option.Rel fun piece port => ∃ value, unescape piece = .ok value ∧
    digits.parseInt value = some (port.val : ℤ)

def DenotesParams : Option (List JavaString) → Option (List JavaString) → Prop :=
  Option.Rel (List.Forall₂ fun piece value => unescape piece = .ok value)

/-- A term has a name. -/
structure DenotesTerm (piece pair : JavaString × JavaString) : Prop where
  name : unescape piece.1 = .ok pair.1
  value : unescape piece.2 = .ok pair.2
  named : pair.1 ≠ []

/-- The names and values added one after the other. -/
def addPairs (terms : Terms) (pairs : List (JavaString × JavaString)) :
    Terms :=
  pairs.foldl (fun terms pair => terms.addValue pair.1 (some pair.2)) terms

/-- The names and values of the terms, from which the terms are made. -/
def DenotesTerms (pieces : List (JavaString × JavaString)) (terms : Terms) :
    Prop :=
  ∃ pairs, List.Forall₂ DenotesTerm pieces pairs ∧
    terms = addPairs none pairs

/-- The pieces stand for the fields. -/
structure Reads (digits : Digits) (pieces : Pieces) (url : Url) : Prop where
  scheme : Denotes (some pieces.scheme) url.scheme
  user : Denotes pieces.user url.user
  password : Denotes pieces.password url.password
  host : Denotes pieces.host url.host
  port : DenotesPort digits pieces.port url.port
  uri : Denotes (some pieces.uri) url.uri
  params : DenotesParams pieces.params url.params
  terms : DenotesTerms pieces.terms url.terms
  fragment : Denotes pieces.fragment url.fragment
  schemeNamed : url.scheme ≠ some []
  userNamed : url.user ≠ some []
  hostNamed : url.host ≠ some []
  fragmentNamed : url.fragment ≠ some []

@[simp]
theorem denotes_none {value : Option JavaString} :
    Denotes none value ↔ value = none := by
  cases value with
  | none => exact iff_of_true .none rfl
  | some value => exact iff_of_false nofun nofun

@[simp]
theorem denotesPort_none {digits : Digits} {port : Option (Fin 65536)} :
    DenotesPort digits none port ↔ port = none := by
  cases port with
  | none => exact iff_of_true .none rfl
  | some port => exact iff_of_false nofun nofun

theorem denotes_some {piece : JavaString} {value : Option JavaString} :
    Denotes (some piece) value ↔
      ∃ text, unescape piece = .ok text ∧ value = some text := by
  constructor
  · rintro ⟨unescaped⟩
    exact ⟨_, unescaped, rfl⟩
  · rintro ⟨text, unescaped, rfl⟩
    exact .some unescaped

theorem pure_eq_ok {value result : Url} :
    (pure value : Except Thrown Url) = .ok result ↔ result = value :=
  ⟨fun same => (Except.ok.inj same).symm, fun same => congrArg _ same.symm⟩

/-! ## Setting a field -/

section

variable {url next : Url} {s rest : JavaString}

/-- Setting a field that must not be blank. -/
theorem notBlank_eq_ok {name value : JavaString} {change : Url} :
    (do checkNotBlank name value; return change) =
        (Except.ok next : Except Thrown Url) ↔
      value ≠ [] ∧ next = change := by
  cases value with
  | nil => exact iff_of_false nofun fun both => both.1 rfl
  | cons c value =>
      constructor
      · intro same
        exact ⟨List.cons_ne_nil c value, (Except.ok.inj same).symm⟩
      · rintro ⟨-, rfl⟩
        rfl

/-! ## The terms -/

theorem addTerm_eq_ok {name value : JavaString} :
    url.addTerm name value = .ok next ↔
      name ≠ [] ∧
        next = { url with terms := url.terms.addValue name (some value) } := by
  cases name with
  | nil => exact iff_of_false nofun fun both => both.1 rfl
  | cons c name =>
      constructor
      · intro same
        exact ⟨List.cons_ne_nil c name, (Except.ok.inj same).symm⟩
      · rintro ⟨-, rfl⟩
        rfl

theorem parseTerm_eq_ok (nonempty : s ≠ []) :
    url.parseTerm s = .ok next ↔
      ∃ pair, DenotesTerm (termPiece s) pair ∧
        next = { url with terms := addPairs url.terms [pair] } := by
  have ensured (name value : JavaString) :
      Terms.addValue (some url.terms.ensureTerms) name (some value) =
        url.terms.addValue name (some value) := by
    cases url.terms with
    | none => rfl
    | some terms => rfl
  cases parts : cut (char '=') s with
  | mk front back =>
      rw [parseTerm, if_neg (by simpa using nonempty)]
      dsimp only
      rw [leftSplit_of_cut parts, termPiece, parts]
      cases back with
      | none =>
          obtain ⟨-, rfl⟩ := cut_eq_iff.mp parts
          simp only [Option.map_none, joined_none, Option.getD_none,
            bind_eq_ok_iff, addTerm_eq_ok, ensured]
          constructor
          · rintro ⟨name, unescaped, named, rfl⟩
            exact ⟨(name, []), ⟨unescaped, rfl, named⟩, rfl⟩
          · rintro ⟨⟨name, value⟩, denotes, rfl⟩
            obtain rfl : [] = value := Except.ok.inj denotes.value
            exact ⟨name, denotes.name, denotes.named, rfl⟩
      | some back =>
          simp only [Option.map_some, Option.getD_some,
            bind_eq_ok_iff, addTerm_eq_ok, ensured]
          constructor
          · rintro ⟨name, unescaped, value, unescaped', named, rfl⟩
            exact ⟨(name, value), ⟨unescaped, unescaped', named⟩, rfl⟩
          · rintro ⟨⟨name, value⟩, denotes, rfl⟩
            exact ⟨name, denotes.name, value, denotes.value, denotes.named,
              rfl⟩

/-- The pieces of some terms that are not empty stand for names and values,
which are added. -/
def AddsTerms (url : Url) (texts : List JavaString) (next : Url) : Prop :=
  ∃ pairs, List.Forall₂ DenotesTerm
      ((texts.filter (· ≠ [])).map termPiece) pairs ∧
    next = { url with terms := addPairs url.terms pairs }

theorem addsTerms_nil : AddsTerms url [] next ↔ next = url := by
  constructor
  · rintro ⟨pairs, denotes, rfl⟩
    cases denotes
    rfl
  · rintro rfl
    exact ⟨[], .nil, rfl⟩

theorem addsTerms_cons {texts : List JavaString} :
    AddsTerms url (s :: texts) next ↔
      ∃ middle, url.parseTerm s = .ok middle ∧
        AddsTerms middle texts next := by
  by_cases empty : s = []
  · subst empty
    constructor
    · intro adds
      exact ⟨url, rfl, adds⟩
    · rintro ⟨middle, same, adds⟩
      obtain rfl := Except.ok.inj same
      exact adds
  · unfold AddsTerms
    rw [List.filter_cons_of_pos (by simpa using empty), List.map_cons]
    simp only [parseTerm_eq_ok empty, List.forall₂_cons_left_iff]
    constructor
    · rintro ⟨_, ⟨pair, pairs, denotes, rest, rfl⟩, rfl⟩
      exact ⟨_, ⟨pair, denotes, rfl⟩, pairs, rest, rfl⟩
    · rintro ⟨_, ⟨pair, denotes, rfl⟩, pairs, rest, rfl⟩
      exact ⟨pair :: pairs, ⟨pair, pairs, denotes, rest, rfl⟩, rfl⟩

theorem leftSplit_eq_some {c : UInt16} {x : JavaString × JavaString} :
    leftSplit s c = some x ↔ cut c s = (x.1, some x.2) := by
  cases parts : cut c s with
  | mk front back =>
      rw [leftSplit_of_cut parts]
      cases back with
      | none => simp
      | some back => simp [Prod.ext_iff]

theorem leftSplit_eq_none {c : UInt16} :
    leftSplit s c = none ↔ cut c s = (s, none) := by
  cases parts : cut c s with
  | mk front back =>
      rw [leftSplit_of_cut parts]
      cases back with
      | none =>
          obtain ⟨-, rfl⟩ := cut_eq_iff.mp parts
          simp
      | some back => simp

theorem parseTermsLoop_eq_ok :
    url.parseTermsLoop s = .ok next ↔
      AddsTerms url (s.splitOn (char '&')) next := by
  induction size : s.length using Nat.strong_induction_on
    generalizing url s with
  | _ n ih =>
      rw [parseTermsLoop, splitOn_eq_cut]
      split
      case h_1 x found =>
        rw [leftSplit_eq_some.mp found]
        dsimp only
        rw [bind_eq_ok_iff, addsTerms_cons]
        have shorter := leftSplit_length found
        simp only [ih x.2.length (by omega) rfl]
      case h_2 found =>
        rw [leftSplit_eq_none.mp found]
        dsimp only
        simp only [addsTerms_cons, addsTerms_nil, exists_eq_right']

theorem parseTerms_eq_ok :
    url.parseTerms s = .ok next ↔
      ∃ pairs, List.Forall₂ DenotesTerm (termPieces (some s)) pairs ∧
        next = { url with terms := addPairs url.terms pairs } := by
  by_cases empty : s = []
  · subst empty
    have nothing : termPieces (some []) = [] := by decide
    rw [nothing]
    refine Iff.trans ?_ addsTerms_nil.symm
    constructor
    · intro same
      exact (Except.ok.inj same).symm
    · rintro rfl
      rfl
  · rw [parseTerms, if_neg (by simpa using empty)]
    exact parseTermsLoop_eq_ok

/-! ## The params -/

theorem parseParamsLoop_eq_ok :
    url.parseParamsLoop s = .ok next ↔
      ∃ params, List.Forall₂ (fun piece value => unescape piece = .ok value)
          (s.splitOn (char ';')) params ∧
        next = { url with params := some (url.ensureParams ++ params) } := by
  induction size : s.length using Nat.strong_induction_on
    generalizing url s with
  | _ n ih =>
      rw [parseParamsLoop, splitOn_eq_cut]
      split
      case h_1 x found =>
        rw [leftSplit_eq_some.mp found]
        have shorter := leftSplit_length found
        simp only [bind_eq_ok_iff, ih x.2.length (by omega) rfl,
          List.forall₂_cons_left_iff]
        constructor
        · rintro ⟨param, unescaped, params, rest, rfl⟩
          refine ⟨_, ⟨param, params, unescaped, rest, rfl⟩, ?_⟩
          simp [addParam, ensureParams]
        · rintro ⟨_, ⟨param, params, unescaped, rest, rfl⟩, rfl⟩
          refine ⟨param, unescaped, params, rest, ?_⟩
          simp [addParam, ensureParams]
      case h_2 found =>
        rw [leftSplit_eq_none.mp found]
        simp only [bind_eq_ok_iff, List.forall₂_cons_left_iff,
          List.forall₂_nil_left_iff]
        constructor
        · rintro ⟨param, unescaped, same⟩
          exact ⟨[param], ⟨param, [], unescaped, rfl, rfl⟩,
            (Except.ok.inj same).symm⟩
        · rintro ⟨_, ⟨param, _, unescaped, rfl, rfl⟩, rfl⟩
          exact ⟨param, unescaped, rfl⟩

theorem parseParams_eq_ok (unset : url.params = none) :
    url.parseParams s = .ok next ↔
      ∃ params, DenotesParams (paramPieces (some s)) params ∧
        next = { url with params := params } := by
  by_cases empty : s = []
  · subst empty
    constructor
    · intro same
      obtain rfl := Except.ok.inj same
      exact ⟨none, .none, by rw [← unset]⟩
    · rintro ⟨_, ⟨⟩, rfl⟩
      rw [← unset]
      rfl
  · rw [parseParams, if_neg (by simpa using empty), parseParamsLoop_eq_ok,
      paramPieces, if_neg empty]
    simp only [ensureParams, unset, Option.getD_none, Option.getD_some,
      List.nil_append]
    constructor
    · rintro ⟨params, denotes, rfl⟩
      exact ⟨some params, .some denotes, rfl⟩
    · rintro ⟨_, ⟨denotes⟩, rfl⟩
      exact ⟨_, denotes, rfl⟩

/-! ## User, password, host and port -/

theorem setPort_eq_ok {port : ℤ} :
    url.setPort port = .ok next ↔
      ∃ small : Fin 65536, port = small.val ∧
        next = { url with port := some small } := by
  rw [setPort]
  split_ifs with small
  · constructor
    · intro same
      refine ⟨⟨port.toNat, by omega⟩, ?_, (Except.ok.inj same).symm⟩
      exact (Int.toNat_of_nonneg small.1).symm
    · rintro ⟨port, rfl, rfl⟩
      rfl
  · refine iff_of_false (by rintro ⟨⟩) ?_
    rintro ⟨port, rfl, -⟩
    exact small ⟨by omega, by omega⟩

theorem checkNotInteger_eq_ok {digits : Digits} {name value : JavaString}
    {n : ℤ} :
    checkNotInteger digits name value = .ok n ↔
      digits.parseInt value = some n := by
  cases value with
  | nil => exact iff_of_false (by rintro ⟨⟩) (by rintro ⟨⟩)
  | cons c value =>
      simp only [checkNotInteger]
      cases digits.parseInt (c :: value) with
      | none => exact iff_of_false (by rintro ⟨⟩) (by rintro ⟨⟩)
      | some m =>
          rw [Option.some_inj]
          exact ⟨Except.ok.inj, congrArg Except.ok⟩

theorem setHost_eq_ok {host : JavaString} :
    url.setHost host = .ok next ↔
      host ≠ [] ∧ next = { url with host := some host } :=
  notBlank_eq_ok

theorem setUser_eq_ok {user : JavaString} :
    url.setUser user = .ok next ↔
      user ≠ [] ∧ next = { url with user := some user } :=
  notBlank_eq_ok

theorem parseHostPort_eq_ok {digits : Digits} (unset : url.port = none) :
    url.parseHostPort digits s = .ok next ↔
      ∃ host port, unescape (cut (char ':') s).1 = .ok host ∧ host ≠ [] ∧
        DenotesPort digits (cut (char ':') s).2 port ∧
        next = { url with host := some host, port := port } := by
  cases parts : cut (char ':') s with
  | mk front back =>
      rw [parseHostPort, leftSplit_of_cut parts]
      cases back with
      | none =>
          obtain ⟨-, rfl⟩ := cut_eq_iff.mp parts
          simp only [Option.map_none, joined_none, bind_eq_ok_iff,
            setHost_eq_ok]
          constructor
          · rintro ⟨host, unescaped, named, rfl⟩
            exact ⟨host, none, unescaped, named, .none, by rw [← unset]⟩
          · rintro ⟨host, _, unescaped, named, ⟨⟩, rfl⟩
            exact ⟨host, unescaped, named, by rw [← unset]⟩
      | some back =>
          simp only [Option.map_some, bind_eq_ok_iff, setHost_eq_ok,
            checkNotInteger_eq_ok, setPort_eq_ok]
          constructor
          · rintro ⟨host, unescaped, _, ⟨named, rfl⟩, value, unescaped', _,
              parsed, port, rfl, rfl⟩
            exact ⟨host, some port, unescaped, named,
              .some ⟨value, unescaped', parsed⟩, rfl⟩
          · rintro ⟨host, _, unescaped, named, ⟨value, unescaped', parsed⟩,
              rfl⟩
            exact ⟨host, unescaped, _, ⟨named, rfl⟩, value, unescaped', _,
              parsed, _, rfl, rfl⟩

theorem parseUserPassword_eq_ok (unset : url.password = none) :
    url.parseUserPassword s = .ok next ↔
      ∃ user password, unescape (cut (char ':') s).1 = .ok user ∧
        user ≠ [] ∧ Denotes (cut (char ':') s).2 password ∧
        next = { url with user := some user, password := password } := by
  cases parts : cut (char ':') s with
  | mk front back =>
      rw [parseUserPassword, leftSplit_of_cut parts]
      cases back with
      | none =>
          obtain ⟨-, rfl⟩ := cut_eq_iff.mp parts
          simp only [Option.map_none, joined_none, bind_eq_ok_iff,
            setUser_eq_ok]
          constructor
          · rintro ⟨user, unescaped, named, rfl⟩
            exact ⟨user, none, unescaped, named, .none, by rw [← unset]⟩
          · rintro ⟨user, _, unescaped, named, ⟨⟩, rfl⟩
            exact ⟨user, unescaped, named, by rw [← unset]⟩
      | some back =>
          simp only [Option.map_some, bind_eq_ok_iff, setUser_eq_ok]
          constructor
          · rintro ⟨user, unescaped, _, ⟨named, rfl⟩, password, unescaped',
              same⟩
            exact ⟨user, some password, unescaped, named, .some unescaped',
              (Except.ok.inj same).symm⟩
          · rintro ⟨user, _, unescaped, named, ⟨unescaped'⟩, rfl⟩
            exact ⟨user, unescaped, _, ⟨named, rfl⟩, _, unescaped', rfl⟩

/-- What the pieces of an authority say about the fields. -/
structure SetsHost (digits : Digits) (pieces : Pieces) (url next : Url) :
    Prop where
  user : Denotes pieces.user next.user
  password : Denotes pieces.password next.password
  host : Denotes pieces.host next.host
  port : DenotesPort digits pieces.port next.port
  userNamed : next.user ≠ some []
  hostNamed : next.host ≠ some []
  rest : next = { url with
    user := next.user
    password := next.password
    host := next.host
    port := next.port }

/-- No user, password, host or port has been set. -/
structure Hostless (url : Url) : Prop where
  user : url.user = none
  password : url.password = none
  host : url.host = none
  port : url.port = none

variable {digits : Digits}

/-- There is no piece of an authority. -/
structure Unsplit (pieces : Pieces) : Prop where
  user : pieces.user = none
  password : pieces.password = none
  host : pieces.host = none
  port : pieces.port = none

theorem parseHost_eq_ok {pieces : Pieces} (hostless : Hostless url)
    (unsplit : Unsplit pieces) :
    url.parseHost digits s = .ok next ↔
      SetsHost digits (authorityPieces pieces s) url next := by
  cases parts : cut (char '@') s with
  | mk front back =>
      rw [parseHost, leftSplit_of_cut parts, authorityPieces, parts]
      cases back with
      | none =>
          obtain ⟨-, rfl⟩ := cut_eq_iff.mp parts
          simp only [Option.map_none, joined_none,
            parseHostPort_eq_ok hostless.port]
          constructor
          · rintro ⟨host, port, unescaped, named, denotes, rfl⟩
            have user : Denotes pieces.user url.user := by
              rw [unsplit.user, denotes_none]
              exact hostless.user
            have password : Denotes pieces.password url.password := by
              rw [unsplit.password, denotes_none]
              exact hostless.password
            have userNamed : url.user ≠ some [] := by
              rw [hostless.user]
              exact nofun
            exact ⟨user, password, .some unescaped, denotes, userNamed,
              by simpa using named, rfl⟩
          · intro sets
            obtain ⟨host, unescaped, same⟩ := denotes_some.mp sets.host
            have user : next.user = url.user := by
              rw [hostless.user, ← denotes_none]
              exact unsplit.user ▸ sets.user
            have password : next.password = url.password := by
              rw [hostless.password, ← denotes_none]
              exact unsplit.password ▸ sets.password
            refine ⟨host, next.port, unescaped, ?_, sets.port, ?_⟩
            · rintro rfl
              exact sets.hostNamed same
            · rw [← same, ← user, ← password]
              exact sets.rest
      | some back =>
          simp only [Option.map_some, bind_eq_ok_iff,
            parseUserPassword_eq_ok hostless.password]
          constructor
          · rintro ⟨_, ⟨user, password, unescaped, named, denotes, rfl⟩,
              parsed⟩
            obtain ⟨host, port, unescaped', named', denotes', rfl⟩ :=
              (parseHostPort_eq_ok (by exact hostless.port)).mp parsed
            exact ⟨.some unescaped, denotes, .some unescaped', denotes',
              by simpa using named, by simpa using named', rfl⟩
          · intro sets
            obtain ⟨user, unescaped, same⟩ := denotes_some.mp sets.user
            obtain ⟨host, unescaped', same'⟩ := denotes_some.mp sets.host
            have named : user ≠ [] := by
              rintro rfl
              exact sets.userNamed same
            have named' : host ≠ [] := by
              rintro rfl
              exact sets.hostNamed same'
            refine ⟨_, ⟨user, next.password, unescaped, named, sets.password,
              rfl⟩, (parseHostPort_eq_ok (by exact hostless.port)).mpr
                ⟨host, next.port, unescaped', named', sets.port, ?_⟩⟩
            rw [← same, ← same']
            exact sets.rest

/-- The fields that the pieces of `[//…/]uri` are for. -/
structure SetsUri (digits : Digits) (pieces : Pieces) (url next : Url) :
    Prop where
  host : SetsHost digits pieces { url with uri := next.uri } next
  uri : Denotes (some pieces.uri) next.uri

theorem authorityPieces_uri (pieces : Pieces) (s : JavaString) :
    (authorityPieces pieces s).uri = pieces.uri := by
  unfold authorityPieces
  split <;> rfl

theorem SetsHost.setUri {pieces : Pieces}
    (sets : SetsHost digits pieces url next) (uri : Option JavaString) :
    SetsHost digits pieces { url with uri := uri } { next with uri := uri } :=
  ⟨sets.user, sets.password, sets.host, sets.port, sets.userNamed,
    sets.hostNamed, congrArg (fun url => { url with uri := uri }) sets.rest⟩

/-- A `URL` that has no authority. -/
theorem setsHost_iff {pieces : Pieces} (hostless : Hostless url)
    (unsplit : Unsplit pieces) :
    SetsHost digits pieces url next ↔ next = url := by
  constructor
  · intro sets
    have user := unsplit.user ▸ sets.user
    have password := unsplit.password ▸ sets.password
    have host := unsplit.host ▸ sets.host
    have port := unsplit.port ▸ sets.port
    rw [denotes_none, ← hostless.user] at user
    rw [denotes_none, ← hostless.password] at password
    rw [denotes_none, ← hostless.host] at host
    rw [denotesPort_none, ← hostless.port] at port
    have rest := sets.rest
    rwa [user, password, host, port] at rest
  · rintro rfl
    have denotes {piece value : Option JavaString} (no : piece = none)
        (unset : value = none) : Denotes piece value := by
      rw [no, unset]
      exact .none
    constructor
    case user => exact denotes unsplit.user hostless.user
    case password => exact denotes unsplit.password hostless.password
    case host => exact denotes unsplit.host hostless.host
    case port =>
      rw [unsplit.port, hostless.port]
      exact .none
    case userNamed =>
      rw [hostless.user]
      exact nofun
    case hostNamed =>
      rw [hostless.host]
      exact nofun
    case rest => rfl

theorem takeHost_eq (unprefixed : ¬ (text "//").isPrefixOf s) :
    url.takeHost digits s = .ok (url, s) := by
  rw [takeHost, if_neg unprefixed]

theorem takeHost_eq_of_slashes (begins : (text "//").isPrefixOf s = true) :
    url.takeHost digits s = do
      let url ← url.parseHost digits (cut (char '/') (s.drop 2)).1
      return (url, (cut (char '/') (s.drop 2)).2.getD []) := by
  cases parts : cut (char '/') (s.drop 2) with
  | mk front back =>
      rw [takeHost, if_pos begins]
      dsimp only
      rw [leftSplit_of_cut parts]
      cases back with
      | none =>
          obtain ⟨-, same⟩ := cut_eq_iff.mp parts
          rw [← same]
          rfl
      | some back => rfl

theorem takeHost_eq_ok {pieces : Pieces} (hostless : Hostless url)
    (unsplit : Unsplit pieces) :
    (∃ taken, url.takeHost digits s = .ok taken ∧
      ∃ uri, unescape taken.2 = .ok uri ∧ next = taken.1.setUri uri) ↔
      SetsUri digits (uriPieces pieces s) url next := by
  by_cases begins : (text "//").isPrefixOf s = true
  · rw [takeHost_eq_of_slashes begins, uriPieces, if_pos begins]
    generalize cut (char '/') (s.drop 2) = parts
    have unsplit' : Unsplit { pieces with uri := parts.2.getD [] } :=
      ⟨unsplit.user, unsplit.password, unsplit.host, unsplit.port⟩
    constructor
    · rintro ⟨_, taken, uri, unescaped, rfl⟩
      obtain ⟨middle, parsedHost, same⟩ := bind_eq_ok_iff.mp taken
      obtain rfl := Except.ok.inj same
      have sets := (parseHost_eq_ok hostless unsplit').mp parsedHost
      refine ⟨sets.setUri (some uri), ?_⟩
      rw [authorityPieces_uri]
      exact .some unescaped
    · intro sets
      have uri := sets.uri
      rw [authorityPieces_uri, denotes_some] at uri
      obtain ⟨uri, unescaped, same⟩ := uri
      have parsed := (parseHost_eq_ok hostless unsplit').mpr
        (sets.host.setUri url.uri)
      rw [parsed]
      refine ⟨_, rfl, uri, unescaped, ?_⟩
      rw [setUri, ← same]
  · rw [takeHost_eq begins, uriPieces, if_neg begins]
    have unsplit' : Unsplit { pieces with uri := s } :=
      ⟨unsplit.user, unsplit.password, unsplit.host, unsplit.port⟩
    constructor
    · rintro ⟨_, same, uri, unescaped, rfl⟩
      obtain rfl := Except.ok.inj same
      refine ⟨(setsHost_iff ?_ unsplit').mpr rfl, .some unescaped⟩
      exact ⟨hostless.user, hostless.password, hostless.host, hostless.port⟩
    · intro sets
      obtain ⟨uri, unescaped, same⟩ := denotes_some.mp sets.uri
      have next := (setsHost_iff (by
        exact ⟨hostless.user, hostless.password, hostless.host,
          hostless.port⟩) unsplit').mp sets.host
      refine ⟨_, rfl, uri, unescaped, ?_⟩
      rw [next, setUri, same]

/-! ## The whole string -/

theorem setScheme_eq_ok {scheme : JavaString} :
    url.setScheme scheme = .ok next ↔
      scheme ≠ [] ∧ next = { url with scheme := some scheme } :=
  notBlank_eq_ok

theorem setFragment_eq_ok {fragment : JavaString} :
    url.setFragment fragment = .ok next ↔
      fragment ≠ [] ∧ next = { url with fragment := some fragment } :=
  notBlank_eq_ok

theorem takeFragment_eq_ok (unset : url.fragment = none) :
    url.takeFragment s = .ok (next, rest) ↔
      rest = (cut (char '#') s).1 ∧
        Denotes (cut (char '#') s).2 next.fragment ∧
        next.fragment ≠ some [] ∧
        next = { url with fragment := next.fragment } := by
  cases parts : cut (char '#') s with
  | mk front back =>
      rw [takeFragment, leftSplit_of_cut parts]
      cases back with
      | none =>
          obtain ⟨-, rfl⟩ := cut_eq_iff.mp parts
          constructor
          · intro same
            obtain ⟨rfl, rfl⟩ := Prod.mk.inj (Except.ok.inj same)
            rw [unset]
            exact ⟨rfl, .none, nofun, by rw [← unset]⟩
          · rintro ⟨rfl, denotes, -, same⟩
            rw [denotes_none.mp denotes, ← unset] at same
            rw [same]
            rfl
      | some back =>
          simp only [Option.map_some, bind_eq_ok_iff, setFragment_eq_ok]
          constructor
          · rintro ⟨fragment, unescaped, _, ⟨named, rfl⟩, same⟩
            obtain ⟨rfl, rfl⟩ := Prod.mk.inj (Except.ok.inj same)
            exact ⟨rfl, .some unescaped, by simpa using named, rfl⟩
          · rintro ⟨rfl, denotes, named, same⟩
            obtain ⟨fragment, unescaped, found⟩ := denotes_some.mp denotes
            rw [found] at same named
            exact ⟨fragment, unescaped, _, ⟨by simpa using named, rfl⟩,
              by rw [same]; rfl⟩

theorem takeTerms_eq_ok (unset : url.terms = none) :
    url.takeTerms s = .ok (next, rest) ↔
      rest = (cut (char '?') s).1 ∧
        DenotesTerms (termPieces (cut (char '?') s).2) next.terms ∧
        next = { url with terms := next.terms } := by
  cases parts : cut (char '?') s with
  | mk front back =>
      rw [takeTerms, leftSplit_of_cut parts]
      cases back with
      | none =>
          obtain ⟨-, rfl⟩ := cut_eq_iff.mp parts
          constructor
          · intro same
            obtain ⟨rfl, rfl⟩ := Prod.mk.inj (Except.ok.inj same)
            exact ⟨rfl, ⟨[], .nil, unset⟩, rfl⟩
          · rintro ⟨rfl, ⟨_, ⟨⟩, none⟩, same⟩
            have none : next.terms = url.terms := none.trans unset.symm
            rw [none] at same
            rw [same]
            rfl
      | some back =>
          simp only [Option.map_some, bind_eq_ok_iff, parseTerms_eq_ok]
          constructor
          · rintro ⟨_, ⟨pairs, denotes, rfl⟩, same⟩
            obtain ⟨rfl, rfl⟩ := Prod.mk.inj (Except.ok.inj same)
            exact ⟨rfl, ⟨pairs, denotes, by rw [unset]⟩, rfl⟩
          · rintro ⟨rfl, ⟨pairs, denotes, made⟩, same⟩
            rw [← unset] at made
            rw [made] at same
            exact ⟨_, ⟨pairs, denotes, rfl⟩, by rw [same]; rfl⟩

theorem takeParams_eq_ok (unset : url.params = none) :
    url.takeParams s = .ok (next, rest) ↔
      rest = (cut (char ';') s).1 ∧
        DenotesParams (paramPieces (cut (char ';') s).2) next.params ∧
        next = { url with params := next.params } := by
  cases parts : cut (char ';') s with
  | mk front back =>
      rw [takeParams, leftSplit_of_cut parts]
      cases back with
      | none =>
          obtain ⟨-, rfl⟩ := cut_eq_iff.mp parts
          constructor
          · intro same
            obtain ⟨rfl, rfl⟩ := Prod.mk.inj (Except.ok.inj same)
            rw [unset]
            exact ⟨rfl, .none, by rw [← unset]⟩
          · rintro ⟨rfl, denotes, same⟩
            have none : next.params = none := by
              cases found : next.params with
              | none => rfl
              | some params => exact nomatch found ▸ denotes
            rw [none, ← unset] at same
            rw [same]
            rfl
      | some back =>
          simp only [Option.map_some, bind_eq_ok_iff,
            parseParams_eq_ok unset]
          constructor
          · rintro ⟨_, ⟨params, denotes, rfl⟩, same⟩
            obtain ⟨rfl, rfl⟩ := Prod.mk.inj (Except.ok.inj same)
            exact ⟨rfl, denotes, rfl⟩
          · rintro ⟨rfl, denotes, same⟩
            exact ⟨_, ⟨next.params, denotes, rfl⟩, by rw [← same]; rfl⟩

/-- What is said of the authority leaves the other pieces alone. -/
theorem uriPieces_rest (pieces : Pieces) (s : JavaString) :
    (uriPieces pieces s).scheme = pieces.scheme ∧
      (uriPieces pieces s).params = pieces.params ∧
      (uriPieces pieces s).terms = pieces.terms ∧
      (uriPieces pieces s).fragment = pieces.fragment := by
  unfold uriPieces authorityPieces
  split_ifs
  · split <;> exact ⟨rfl, rfl, rfl, rfl⟩
  · exact ⟨rfl, rfl, rfl, rfl⟩

end

/-- A string is accepted if its pieces stand for the fields. -/
theorem parse_eq_ok_iff {digits : Digits} {s : JavaString} {url : Url} :
    parse digits s = .ok url ↔
      ∃ found, pieces s = some found ∧ Reads digits found url := by
  cases parts : cut (char ':') s with
  | mk front back =>
      rw [parse, leftSplit_of_cut parts, pieces, parts]
      cases back with
      | none => exact iff_of_false nofun (by rintro ⟨_, ⟨⟩, _⟩)
      | some back =>
          simp only [Option.map_some, bind_eq_ok_iff, setScheme_eq_ok,
            pure_eq_ok, Option.some_inj, exists_eq_left', restPieces]
          have unsplit : Unsplit (outerPieces front
              (cut (char ';') (cut (char '?') (cut (char '#') back).1).1).2
              (cut (char '?') (cut (char '#') back).1).2
              (cut (char '#') back).2) :=
            ⟨rfl, rfl, rfl, rfl⟩
          have hostless (scheme fragment : Option JavaString)
              (terms : Terms) (params : Option (List JavaString)) :
              Hostless { scheme, fragment, terms, params } :=
            ⟨rfl, rfl, rfl, rfl⟩
          have reads := @uriPieces_rest (outerPieces front
            (cut (char ';') (cut (char '?') (cut (char '#') back).1).1).2
            (cut (char '?') (cut (char '#') back).1).2
            (cut (char '#') back).2)
            (cut (char ';') (cut (char '?') (cut (char '#') back).1).1).1
          obtain ⟨scheme, params, terms, fragment⟩ := reads
          constructor
          · rintro ⟨text, unescaped, _, ⟨named, rfl⟩, ⟨url₁, s₁⟩, taken₁,
              ⟨url₂, s₂⟩, taken₂, ⟨url₃, s₃⟩, taken₃, rest⟩
            obtain ⟨rfl, denotes₁, named₁, same₁⟩ :=
              (takeFragment_eq_ok (by rfl)).mp taken₁
            generalize url₁.fragment = fragment' at denotes₁ named₁ same₁
            subst same₁
            obtain ⟨rfl, denotes₂, same₂⟩ :=
              (takeTerms_eq_ok (by rfl)).mp taken₂
            generalize url₂.terms = terms' at denotes₂ same₂
            subst same₂
            obtain ⟨rfl, denotes₃, same₃⟩ :=
              (takeParams_eq_ok (by rfl)).mp taken₃
            generalize url₃.params = params' at denotes₃ same₃
            subst same₃
            have sets := (takeHost_eq_ok
              (hostless (some text) fragment' terms' params') unsplit).mp rest
            have same := sets.host.rest
            have scheme' : url.scheme = some text := by rw [same]
            have fragment'' : url.fragment = fragment' := by rw [same]
            have terms'' : url.terms = terms' := by rw [same]
            have params'' : url.params = params' := by rw [same]
            refine ⟨?_, sets.host.user, sets.host.password, sets.host.host,
              sets.host.port, sets.uri, ?_, ?_, ?_, ?_, sets.host.userNamed,
              sets.host.hostNamed, ?_⟩
            · rw [scheme, scheme']
              exact .some unescaped
            · rw [params, params'']
              exact denotes₃
            · rw [terms, terms'']
              exact denotes₂
            · rw [fragment, fragment'']
              exact denotes₁
            · rw [scheme']
              simpa using named
            · rw [fragment'']
              exact named₁
          · intro reads
            have denotes := reads.scheme
            rw [scheme, denotes_some] at denotes
            obtain ⟨text, unescaped, same⟩ := denotes
            have named : text ≠ [] := by
              rintro rfl
              exact reads.schemeNamed same
            have fragment' := reads.fragment
            have terms' := reads.terms
            have params' := reads.params
            rw [fragment] at fragment'
            rw [terms] at terms'
            rw [params] at params'
            have rest : url =
                { scheme := some text, user := url.user
                  password := url.password, host := url.host
                  port := url.port, uri := url.uri, params := url.params
                  terms := url.terms, fragment := url.fragment } := by
              rw [← same]
            exact ⟨text, unescaped, { scheme := some text }, ⟨named, rfl⟩,
              ({ scheme := some text, fragment := url.fragment }, _),
              (takeFragment_eq_ok (by rfl)).mpr
                ⟨rfl, fragment', reads.fragmentNamed, rfl⟩,
              ({ scheme := some text, fragment := url.fragment
                 terms := url.terms }, _),
              (takeTerms_eq_ok (by rfl)).mpr ⟨rfl, terms', rfl⟩,
              ({ scheme := some text, fragment := url.fragment
                 terms := url.terms, params := url.params }, _),
              (takeParams_eq_ok (by rfl)).mpr ⟨rfl, params', rfl⟩,
              (takeHost_eq_ok (hostless _ _ _ _) unsplit).mpr
                ⟨⟨reads.user, reads.password, reads.host, reads.port,
                  reads.userNamed, reads.hostNamed, rest⟩, reads.uri⟩⟩

end Url

end Etch.Java
