import Etch.Cpp.UrlStrings

/-!
# What `EtchURL` takes of a string

A string is accepted as long as nothing is empty behind a delimiter of its
own; a host without a port, a term without a value and a user with an empty
password are dropped.
-/

namespace Etch.Cpp

open Etch.Library.Fallible
open Etch.Library.Splitting

/-! ## The parts of a string -/

/-- The parts of a string behind its scheme, down to the authority. -/
structure Parts (Code : Type) where
  scheme : List Code
  rest : List Code
  fragment : Option (List Code)
  terms : Option (List Code)
  params : Option (List Code)
  body : List Code
  authority : Option (List Code)
  slash : Option (List Code)

namespace Parts

section

variable {Code : Type} [DecidableEq Code] (δ : Char → Code)

/-- `[//authority[/uri]]` or `uri` -/
def ofRest (scheme rest : List Code) : Parts Code :=
  let fragment := cut (δ '#') rest
  let terms := cut (δ '?') fragment.1
  let params := cut (δ ';') terms.1
  let begins := [δ '/', δ '/'].isPrefixOf params.1
  let uri := cut (δ '/') (params.1.drop 2)
  { scheme
    rest
    fragment := fragment.2
    terms := terms.2
    params := params.2
    body := params.1
    authority := if begins then some uri.1 else none
    slash := if begins then uri.2 else none }

def of (s : List Code) : Option (Parts Code) :=
  match cut (δ ':') s with
  | (scheme, some rest) => some (ofRest δ scheme rest)
  | (_, none) => none

variable (parts : Parts Code)

def uri : List Code :=
  match parts.authority with
  | none => parts.body
  | some _ => parts.slash.getD []

/-- `user[:password]` -/
def userPassword : Option (List Code × Option (List Code)) :=
  parts.authority.bind fun authority =>
    match cut (δ '@') authority with
    | (user, some _) => some (cut (δ ':') user)
    | (_, none) => none

/-- `host[:port]` -/
def hostPort : Option (List Code × Option (List Code)) :=
  parts.authority.map fun authority =>
    match cut (δ '@') authority with
    | (_, some host) => cut (δ ':') host
    | (host, none) => cut (δ ':') host

/-- The terms that are not empty, with the values of those that have one. -/
def termPieces : List (List Code × Option (List Code)) :=
  match parts.terms with
  | none => []
  | some terms =>
      ((terms.splitOn (δ '&')).filter (· ≠ [])).map (cut (δ '='))

/-- A name with a value that is not empty. -/
def hasValue (s : List Code) : Prop :=
  ∃ value ∈ (cut (δ '=') s).2, value ≠ []

/-- Nothing is empty behind the scheme, the number sign, the question mark,
the last semicolon, the slash or the at sign, and the last term has a value.
-/
structure Taken : Prop where
  rest : parts.rest ≠ []
  fragment : parts.fragment ≠ some []
  terms : ∀ terms ∈ parts.terms,
    ∃ last ∈ (terms.splitOn (δ '&')).getLast?, hasValue δ last
  params : ∀ params ∈ parts.params,
    ∃ last ∈ (params.splitOn (δ ';')).getLast?, last ≠ []
  slash : parts.slash ≠ some []
  host : ∀ authority ∈ parts.authority,
    (cut (δ '@') authority).2 ≠ some []

end

end Parts

namespace EtchURL

open EtchString

variable {url next : EtchURL} {s rest : CString}

/-! ## Terms and params -/

/-- The name and the value of a term that is not dropped. -/
def termOf (s : CString) : Option (CString × CString) :=
  match cut (byte '=') s with
  | (_, none) => none
  | (name, some value) => if value = [] then none else some (name, value)

/-- The table once a term has been added or dropped. -/
def putTerm (table : UrlTable) (s : CString) : UrlTable :=
  match termOf s with
  | none => table
  | some (name, value) => table.insert name value

theorem termOf_isSome : (termOf s).isSome = true ↔ Parts.hasValue byte s := by
  unfold termOf Parts.hasValue
  cases cut (byte '=') s with
  | mk name value =>
      cases value with
      | none => simp
      | some value => by_cases empty : value = [] <;> simp [empty]

theorem parseTerm_eq (small : s.length < 2 ^ 32 - 1) (nonempty : s ≠ []) :
    url.parseTerm s =
      match termOf s with
      | none => (.ETCH_ERROR, url)
      | some (name, value) => (.ETCH_OK, url.addTerm name value) := by
  unfold parseTerm
  rw [if_neg (by simpa using nonempty)]
  dsimp only
  cases parts : cut (byte '=') s with
  | mk name value =>
      cases value with
      | none =>
          have dropped : termOf s = none := by rw [termOf, parts]
          rw [leftFind_of_cut parts, Option.map_none, substrings_none small,
            dropped]
      | some value =>
          rw [leftFind_of_cut parts, Option.map_some,
            substrings_of_cut parts]
          by_cases empty : value = []
          · have dropped : termOf s = none := by
              rw [termOf, parts]
              exact if_pos empty
            rw [if_pos empty, dropped]
          · have kept : termOf s = some (name, value) := by
              rw [termOf, parts]
              exact if_neg empty
            rw [if_neg empty, kept]
            rfl

/-- What is put once a delimiter has been found. -/
theorem parseTerm_terms (small : s.length < 2 ^ 32 - 1) :
    (url.parseTerm s).2 = { url with terms := putTerm url.terms s } := by
  by_cases empty : s = []
  · subst empty
    rfl
  · rw [parseTerm_eq small empty, putTerm]
    cases termOf s with
    | none => rfl
    | some pair => rfl

theorem getLast?_cons {Code : Type} {first : List Code}
    {rest : List (List Code)} (nonempty : rest ≠ []) :
    (first :: rest).getLast? = rest.getLast? := by
  cases rest with
  | nil => exact absurd rfl nonempty
  | cons second rest => exact List.getLast?_cons_cons

theorem parseTermsLoop_eq_ok (small : s.length < 2 ^ 32 - 1)
    (nonempty : s ≠ []) :
    url.parseTermsLoop s = (.ETCH_OK, next) ↔
      (∃ last ∈ (s.splitOn (byte '&')).getLast?, Parts.hasValue byte last) ∧
        next = { url with terms :=
          (s.splitOn (byte '&')).foldl putTerm url.terms } := by
  induction size : s.length using Nat.strong_induction_on
    generalizing url s with
  | _ n ih =>
      cases parts : cut (byte '&') s with
      | mk front back =>
          rw [parseTermsLoop, leftFind_of_cut parts, splitOn_eq_cut, parts]
          cases back with
          | none =>
              obtain ⟨-, rfl⟩ := cut_eq_iff.mp parts
              rw [joined_none] at small nonempty
              simp only [Option.map_none, joined_none, List.getLast?_singleton,
                Option.mem_some_iff, exists_eq_left', List.foldl_cons,
                List.foldl_nil, parseTerm_eq small nonempty,
                ← termOf_isSome, putTerm]
              cases termOf front with
              | none => exact iff_of_false (by rintro ⟨⟩) (by simp)
              | some pair =>
                  simp only [Prod.mk.injEq, Option.isSome_some, true_and]
                  exact eq_comm
          | some back =>
              have shorter := length_lt_of_cut parts
              have front' : front.length < 2 ^ 32 - 1 := by
                obtain ⟨-, rfl⟩ := cut_eq_iff.mp parts
                rw [joined_some, List.length_append] at small
                omega
              dsimp only [Option.map_some]
              rw [getLast?_cons (List.splitOn_ne_nil _ _), List.foldl_cons]
              split
              case h_1 failed =>
                rw [substrings_of_cut parts] at failed
                split_ifs at failed with empty
                subst empty
                refine iff_of_false (by rintro ⟨⟩) ?_
                rintro ⟨⟨last, mem, value, mem', -⟩, -⟩
                rw [List.splitOn_nil, List.getLast?_singleton,
                  Option.mem_some_iff] at mem
                subst mem
                cases mem'
              case h_2 x split =>
                rw [substrings_of_cut parts] at split
                split_ifs at split with empty
                obtain rfl := Except.ok.inj split
                dsimp only
                rw [parseTerm_terms front',
                  ih back.length (by omega) (by omega) empty rfl]

theorem parseParamsLoop_eq_ok (nonempty : s ≠ []) :
    url.parseParamsLoop s = (.ETCH_OK, next) ↔
      (∃ last ∈ (s.splitOn (byte ';')).getLast?, last ≠ []) ∧
        next = { url with params :=
          url.params ++ s.splitOn (byte ';') } := by
  induction size : s.length using Nat.strong_induction_on
    generalizing url s with
  | _ n ih =>
      cases parts : cut (byte ';') s with
      | mk front back =>
          rw [parseParamsLoop, leftFind_of_cut parts, splitOn_eq_cut, parts]
          cases back with
          | none =>
              obtain ⟨-, rfl⟩ := cut_eq_iff.mp parts
              rw [joined_none] at nonempty
              simp only [Option.map_none, joined_none, List.getLast?_singleton,
                Option.mem_some_iff, exists_eq_left', Prod.mk.injEq, true_and,
                nonempty, ne_eq, not_false_eq_true]
              exact eq_comm
          | some back =>
              have shorter := length_lt_of_cut parts
              dsimp only [Option.map_some]
              rw [getLast?_cons (List.splitOn_ne_nil _ _)]
              split
              case h_1 failed =>
                rw [substrings_of_cut parts] at failed
                split_ifs at failed with empty
                subst empty
                refine iff_of_false (by rintro ⟨⟩) ?_
                rintro ⟨⟨last, mem, nonempty⟩, -⟩
                rw [List.splitOn_nil, List.getLast?_singleton,
                  Option.mem_some_iff] at mem
                exact nonempty mem.symm
              case h_2 x split =>
                rw [substrings_of_cut parts] at split
                split_ifs at split with empty
                obtain rfl := Except.ok.inj split
                dsimp only
                rw [ih back.length (by omega) empty rfl, addParam,
                  List.append_assoc]
                rfl

/-! ## The authority -/

/-- The host and the port, where there is one. -/
def putHost (url : EtchURL) : CString × Option CString → EtchURL
  | (_, none) => url
  | (host, some port) =>
      if port = [] then url else (url.setHost host).setPort (atoi port)

/-- The user, unless the password is empty. -/
def putUser (url : EtchURL) : CString × Option CString → EtchURL
  | (user, none) => url.setUser user
  | (user, some password) =>
      if password = [] then url else (url.setUser user).setPassword password

theorem parseHostPort_eq (small : s.length < 2 ^ 32 - 1) :
    (url.parseHostPort s).2 = url.putHost (cut (byte ':') s) := by
  unfold parseHostPort
  dsimp only
  cases parts : cut (byte ':') s with
  | mk host port =>
      cases port with
      | none =>
          rw [leftFind_of_cut parts, Option.map_none, substrings_none small]
          rfl
      | some port =>
          rw [leftFind_of_cut parts, Option.map_some,
            substrings_of_cut parts, putHost]
          by_cases empty : port = []
          · rw [if_pos empty, if_pos empty]
          · rw [if_neg empty, if_neg empty]

theorem parseUserPassword_eq :
    (url.parseUserPassword s).2 = url.putUser (cut (byte ':') s) := by
  unfold parseUserPassword
  dsimp only
  cases parts : cut (byte ':') s with
  | mk user password =>
      cases password with
      | none =>
          obtain ⟨-, rfl⟩ := cut_eq_iff.mp parts
          rw [leftFind_of_cut parts]
          rfl
      | some password =>
          rw [leftFind_of_cut parts, Option.map_some, if_pos nofun,
            substrings_of_cut parts, putUser]
          by_cases empty : password = []
          · rw [if_pos empty, if_pos empty]
          · rw [if_neg empty, if_neg empty]

/-- The user and the host of an authority. -/
def putAuthority (url : EtchURL) (s : CString) : EtchURL :=
  match cut (byte '@') s with
  | (user, some host) =>
      (url.putUser (cut (byte ':') user)).putHost (cut (byte ':') host)
  | (host, none) => url.putHost (cut (byte ':') host)

theorem parseHost_eq_ok (small : s.length < 2 ^ 32 - 1) :
    url.parseHost s = (.ETCH_OK, next) ↔
      (cut (byte '@') s).2 ≠ some [] ∧ next = url.putAuthority s := by
  unfold parseHost putAuthority
  dsimp only
  cases parts : cut (byte '@') s with
  | mk user host =>
      obtain ⟨-, whole⟩ := cut_eq_iff.mp parts
      cases host with
      | none =>
          rw [leftFind_of_cut parts, Option.map_none, if_neg (by simp),
            parseHostPort_eq small]
          rw [joined_none] at whole
          subst whole
          simp only [Prod.mk.injEq, true_and, ne_eq, reduceCtorEq,
            not_false_eq_true]
          exact eq_comm
      | some host =>
          have small' : host.length < 2 ^ 32 - 1 := by
            have shorter := length_lt_of_cut parts
            omega
          rw [leftFind_of_cut parts, Option.map_some, if_pos nofun,
            substrings_of_cut parts]
          by_cases empty : host = []
          · rw [if_pos empty, empty]
            exact iff_of_false nofun fun both => both.1 rfl
          · rw [if_neg empty]
            dsimp only
            rw [parseHostPort_eq small', parseUserPassword_eq]
            simp only [Prod.mk.injEq, true_and, ne_eq, Option.some_inj,
              empty, not_false_eq_true]
            exact eq_comm

/-! ## One part after the other -/

theorem orReturn_eq_ok {returned : Returned} :
    orReturn returned = .ok next ↔ returned = (.ETCH_OK, next) := by
  obtain ⟨status, url⟩ := returned
  cases status with
  | ETCH_OK => simp [orReturn]
  | _ => exact iff_of_false nofun nofun

theorem orReturnWith_eq_ok {α : Type} {value : α}
    {result : Except Status α} :
    orReturnWith url result = .ok value ↔ result = .ok value := by
  cases result with
  | ok found => simp [orReturnWith]
  | error status => exact iff_of_false nofun nofun

theorem substrings_eq_ok {c : UInt8} {front back : CString}
    {x : CString × CString} (parts : cut c s = (front, some back)) :
    substrings s (some front.length) = .ok x ↔ back ≠ [] ∧ x = (front, back) := by
  rw [substrings_of_cut parts]
  split_ifs with empty
  · exact iff_of_false nofun fun both => both.1 empty
  · rw [Except.ok.injEq]
    simp [empty, eq_comm]

theorem takeFragment_eq_ok (unset : url.fragment = none) :
    url.takeFragment s = .ok (next, rest) ↔
      (cut (byte '#') s).2 ≠ some [] ∧ rest = (cut (byte '#') s).1 ∧
        next = { url with fragment := (cut (byte '#') s).2 } := by
  unfold takeFragment
  dsimp only
  cases parts : cut (byte '#') s with
  | mk front back =>
      cases back with
      | none =>
          obtain ⟨-, rfl⟩ := cut_eq_iff.mp parts
          rw [leftFind_of_cut parts, Option.map_none, if_neg (by simp)]
          constructor
          · intro same
            obtain ⟨rfl, rfl⟩ := Prod.mk.inj (Except.ok.inj same)
            exact ⟨nofun, rfl, by rw [← unset]⟩
          · rintro ⟨-, rfl, rfl⟩
            rw [joined_none]
            dsimp only
            rw [← unset]
      | some back =>
          rw [leftFind_of_cut parts, Option.map_some, if_pos nofun]
          simp only [bind_eq_ok_iff, orReturnWith_eq_ok,
            substrings_eq_ok parts]
          constructor
          · rintro ⟨_, ⟨nonempty, rfl⟩, same⟩
            obtain ⟨rfl, rfl⟩ := Prod.mk.inj (Except.ok.inj same)
            exact ⟨by simpa using nonempty, rfl, rfl⟩
          · rintro ⟨nonempty, rfl, rfl⟩
            exact ⟨_, ⟨by simpa using nonempty, rfl⟩, rfl⟩

/-- The table of the terms of a string. -/
def tableOf : Option CString → UrlTable
  | none => ∅
  | some terms => (terms.splitOn (byte '&')).foldl putTerm ∅

theorem takeTerms_eq_ok (small : s.length < 2 ^ 32 - 1)
    (unset : url.terms = ∅) :
    url.takeTerms s = .ok (next, rest) ↔
      (∀ terms ∈ (cut (byte '?') s).2,
        ∃ last ∈ (terms.splitOn (byte '&')).getLast?,
          Parts.hasValue byte last) ∧
        rest = (cut (byte '?') s).1 ∧
        next = { url with terms := tableOf (cut (byte '?') s).2 } := by
  unfold takeTerms
  dsimp only
  cases parts : cut (byte '?') s with
  | mk front back =>
      cases back with
      | none =>
          obtain ⟨-, rfl⟩ := cut_eq_iff.mp parts
          rw [leftFind_of_cut parts, Option.map_none, if_neg (by simp)]
          constructor
          · intro same
            obtain ⟨rfl, rfl⟩ := Prod.mk.inj (Except.ok.inj same)
            exact ⟨nofun, rfl, by rw [tableOf, ← unset]⟩
          · rintro ⟨-, rfl, rfl⟩
            rw [tableOf, ← unset]
            rfl
      | some back =>
          have small' : back.length < 2 ^ 32 - 1 :=
            Nat.lt_trans (length_lt_of_cut parts) small
          rw [leftFind_of_cut parts, Option.map_some, if_pos nofun, tableOf]
          simp only [bind_eq_ok_iff, orReturnWith_eq_ok, orReturn_eq_ok,
            substrings_eq_ok parts, Option.mem_some_iff, forall_eq']
          have loop (nonempty : back ≠ []) :
              url.parseTerms back = url.parseTermsLoop back := by
            rw [parseTerms, if_neg (by simpa using nonempty)]
          have parsed (nonempty : back ≠ []) (next : EtchURL) :=
            @parseTermsLoop_eq_ok url next back small' nonempty
          rw [unset] at parsed
          constructor
          · rintro ⟨_, ⟨nonempty, rfl⟩, url', terms, same⟩
            obtain ⟨rfl, rfl⟩ := Prod.mk.inj (Except.ok.inj same)
            obtain ⟨last, rfl⟩ := (parsed nonempty url').mp (loop nonempty ▸ terms)
            exact ⟨last, rfl, rfl⟩
          · rintro ⟨last, rfl, rfl⟩
            have nonempty : back ≠ [] := by
              rintro rfl
              obtain ⟨last, mem, value, mem', -⟩ := last
              rw [List.splitOn_nil, List.getLast?_singleton,
                Option.mem_some_iff] at mem
              subst mem
              exact nomatch mem'
            exact ⟨_, ⟨nonempty, rfl⟩, _,
              (loop nonempty).trans ((parsed nonempty _).mpr ⟨last, rfl⟩),
              rfl⟩

theorem takeParams_eq_ok (unset : url.params = []) :
    url.takeParams s = .ok (next, rest) ↔
      (∀ params ∈ (cut (byte ';') s).2,
        ∃ last ∈ (params.splitOn (byte ';')).getLast?, last ≠ []) ∧
        rest = (cut (byte ';') s).1 ∧
        next = { url with params :=
          ((cut (byte ';') s).2.map (·.splitOn (byte ';'))).getD [] } := by
  unfold takeParams
  dsimp only
  cases parts : cut (byte ';') s with
  | mk front back =>
      cases back with
      | none =>
          obtain ⟨-, rfl⟩ := cut_eq_iff.mp parts
          rw [leftFind_of_cut parts, Option.map_none, if_neg (by simp)]
          constructor
          · intro same
            obtain ⟨rfl, rfl⟩ := Prod.mk.inj (Except.ok.inj same)
            exact ⟨nofun, rfl, by rw [Option.map_none, Option.getD_none,
              ← unset]⟩
          · rintro ⟨-, rfl, rfl⟩
            rw [Option.map_none, Option.getD_none, ← unset]
            rfl
      | some back =>
          rw [leftFind_of_cut parts, Option.map_some, if_pos nofun,
            Option.map_some, Option.getD_some]
          simp only [bind_eq_ok_iff, orReturnWith_eq_ok, orReturn_eq_ok,
            substrings_eq_ok parts, Option.mem_some_iff, forall_eq']
          have loop (nonempty : back ≠ []) :
              url.parseParams back = url.parseParamsLoop back := by
            rw [parseParams, if_neg (by simpa using nonempty)]
          have parsed (nonempty : back ≠ []) (next : EtchURL) :=
            @parseParamsLoop_eq_ok url next back nonempty
          rw [unset, List.nil_append] at parsed
          constructor
          · rintro ⟨_, ⟨nonempty, rfl⟩, url', params, same⟩
            obtain ⟨rfl, rfl⟩ := Prod.mk.inj (Except.ok.inj same)
            obtain ⟨last, rfl⟩ := (parsed nonempty url').mp (loop nonempty ▸ params)
            exact ⟨last, rfl, rfl⟩
          · rintro ⟨last, rfl, rfl⟩
            have nonempty : back ≠ [] := by
              rintro rfl
              obtain ⟨last, mem, nonempty⟩ := last
              rw [List.splitOn_nil, List.getLast?_singleton,
                Option.mem_some_iff] at mem
              exact nonempty mem.symm
            exact ⟨_, ⟨nonempty, rfl⟩, _,
              (loop nonempty).trans ((parsed nonempty _).mpr ⟨last, rfl⟩),
              rfl⟩

theorem takeHost_eq_ok (small : s.length < 2 ^ 32 - 1)
    (begins : [byte '/', byte '/'].isPrefixOf s = true) :
    url.takeHost s = .ok (next, rest) ↔
      (cut (byte '/') (s.drop 2)).2 ≠ some [] ∧
        (cut (byte '@') (cut (byte '/') (s.drop 2)).1).2 ≠ some [] ∧
        rest = (cut (byte '/') (s.drop 2)).2.getD [] ∧
        next = url.putAuthority (cut (byte '/') (s.drop 2)).1 := by
  have shorter : (s.drop 2).length < 2 ^ 32 - 1 := by
    rw [List.length_drop]
    omega
  unfold takeHost
  rw [if_pos begins]
  dsimp only
  generalize s.drop 2 = s at shorter
  cases parts : cut (byte '/') s with
  | mk front back =>
      cases back with
      | none =>
          obtain ⟨-, rfl⟩ := cut_eq_iff.mp parts
          rw [joined_none] at shorter
          rw [leftFind_of_cut parts, Option.map_none, if_neg (by simp)]
          simp only [bind_eq_ok_iff, orReturn_eq_ok, joined_none,
            parseHost_eq_ok shorter]
          constructor
          · rintro ⟨_, ⟨taken, rfl⟩, same⟩
            obtain ⟨rfl, rfl⟩ := Prod.mk.inj (Except.ok.inj same)
            exact ⟨nofun, taken, rfl, rfl⟩
          · rintro ⟨-, taken, rfl, rfl⟩
            exact ⟨_, ⟨taken, rfl⟩, rfl⟩
      | some back =>
          have shorter' : front.length < 2 ^ 32 - 1 := by
            obtain ⟨-, rfl⟩ := cut_eq_iff.mp parts
            rw [joined_some, List.length_append] at shorter
            omega
          rw [leftFind_of_cut parts, Option.map_some, if_pos nofun]
          simp only [bind_eq_ok_iff, orReturnWith_eq_ok, orReturn_eq_ok,
            substrings_eq_ok parts]
          constructor
          · rintro ⟨_, ⟨nonempty, rfl⟩, url', host, same⟩
            obtain ⟨rfl, rfl⟩ := Prod.mk.inj (Except.ok.inj same)
            obtain ⟨taken, rfl⟩ := (parseHost_eq_ok shorter').mp host
            exact ⟨by simpa using nonempty, taken, rfl, rfl⟩
          · rintro ⟨nonempty, taken, rfl, rfl⟩
            exact ⟨_, ⟨by simpa using nonempty, rfl⟩, _,
              (parseHost_eq_ok shorter').mpr ⟨taken, rfl⟩, rfl⟩

/-- The `EtchURL` of the parts of a string that is accepted. -/
def outcome (parts : Parts UInt8) : EtchURL :=
  let url : EtchURL :=
    { scheme := some parts.scheme
      fragment := parts.fragment
      terms := tableOf parts.terms
      params := (parts.params.map (·.splitOn (byte ';'))).getD [] }
  (match parts.authority with
    | none => url
    | some authority => url.putAuthority authority).setUri parts.uri

theorem cut_fst_length (c : UInt8) (s : CString) :
    (cut c s).1.length ≤ s.length := by
  have whole := congrArg List.length (joined_cut c s)
  cases behind : (cut c s).2 with
  | none =>
      rw [behind, joined_none] at whole
      omega
  | some back =>
      rw [behind, joined_some, List.length_append] at whole
      omega

/-- What is done behind the scheme. -/
theorem parseRest_eq_ok {scheme : CString} (small : s.length < 2 ^ 32 - 1)
    (nonempty : s ≠ []) :
    (do
      let (url, s) ← EtchURL.takeFragment { scheme := some scheme } s
      let (url, s) ← url.takeTerms s
      let (url, s) ← url.takeParams s
      let (url, s) ← url.takeHost s
      return url.setUri s) = (.ok next : Except Returned EtchURL) ↔
      Parts.Taken byte (Parts.ofRest byte scheme s) ∧
        next = outcome (Parts.ofRest byte scheme s) := by
  have small₁ := Nat.lt_of_le_of_lt (cut_fst_length (byte '#') s) small
  have small₂ := Nat.lt_of_le_of_lt
    (cut_fst_length (byte '?') (cut (byte '#') s).1) small₁
  have small₃ := Nat.lt_of_le_of_lt
    (cut_fst_length (byte ';') (cut (byte '?') (cut (byte '#') s).1).1) small₂
  simp only [bind_eq_ok_iff]
  constructor
  · rintro ⟨⟨url₁, s₁⟩, taken₁, ⟨url₂, s₂⟩, taken₂, ⟨url₃, s₃⟩, taken₃,
      ⟨url₄, s₄⟩, taken₄, same⟩
    obtain ⟨fragment, rfl, rfl⟩ := (takeFragment_eq_ok (by rfl)).mp taken₁
    obtain ⟨terms, rfl, rfl⟩ :=
      (takeTerms_eq_ok small₁ (by rfl)).mp taken₂
    obtain ⟨params, rfl, rfl⟩ := (takeParams_eq_ok (by rfl)).mp taken₃
    obtain rfl := Except.ok.inj same
    by_cases begins : [byte '/', byte '/'].isPrefixOf
        (cut (byte ';') (cut (byte '?') (cut (byte '#') s).1).1).1 = true
    · obtain ⟨slash, host, rfl, rfl⟩ :=
        (takeHost_eq_ok small₃ begins).mp taken₄
      refine ⟨⟨nonempty, fragment, terms, params, ?_, ?_⟩, ?_⟩
      · simpa [Parts.ofRest, begins] using slash
      · simpa [Parts.ofRest, begins] using host
      · simp [outcome, Parts.uri, Parts.ofRest, begins]
    · rw [takeHost, if_neg begins] at taken₄
      obtain ⟨rfl, rfl⟩ := Prod.mk.inj (Except.ok.inj taken₄)
      refine ⟨⟨nonempty, fragment, terms, params, ?_, ?_⟩, ?_⟩
      · simp [Parts.ofRest, begins]
      · simp [Parts.ofRest, begins]
      · simp [outcome, Parts.uri, Parts.ofRest, begins]
  · rintro ⟨taken, rfl⟩
    refine ⟨_, (takeFragment_eq_ok (by rfl)).mpr ⟨taken.fragment, rfl, rfl⟩,
      _, (takeTerms_eq_ok small₁ (by rfl)).mpr ⟨taken.terms, rfl, rfl⟩, _,
      (takeParams_eq_ok (by rfl)).mpr ⟨taken.params, rfl, rfl⟩, ?_⟩
    by_cases begins : [byte '/', byte '/'].isPrefixOf
        (cut (byte ';') (cut (byte '?') (cut (byte '#') s).1).1).1 = true
    · have slash := taken.slash
      have host := taken.host
      refine ⟨_, (takeHost_eq_ok small₃ begins).mpr ⟨?_, ?_, rfl, rfl⟩, ?_⟩
      · simpa [Parts.ofRest, begins] using slash
      · simpa [Parts.ofRest, begins] using host
      · simp [outcome, Parts.uri, Parts.ofRest, begins]
        rfl
    · refine ⟨(_, _), (by rw [takeHost, if_neg begins]), ?_⟩
      simp [outcome, Parts.uri, Parts.ofRest, begins]
      rfl

/-- A string is accepted if its parts are taken. -/
theorem parse_eq_ok_iff (small : s.length < 2 ^ 32 - 1) :
    parse {} s = .ok next ↔ ∃ parts, Parts.of byte s = some parts ∧
      Parts.Taken byte parts ∧ next = outcome parts := by
  unfold parse Parts.of
  dsimp only
  cases parts : cut (byte ':') s with
  | mk scheme rest =>
      cases rest with
      | none =>
          rw [leftFind_of_cut parts, Option.map_none, if_pos rfl]
          exact iff_of_false nofun (by rintro ⟨_, ⟨⟩, _⟩)
      | some rest =>
          have small' : rest.length < 2 ^ 32 - 1 :=
            Nat.lt_trans (length_lt_of_cut parts) small
          rw [leftFind_of_cut parts, Option.map_some, if_neg nofun,
            bind_eq_ok_iff]
          simp only [orReturnWith_eq_ok, substrings_eq_ok parts,
            Option.some_inj, exists_eq_left']
          constructor
          · rintro ⟨_, ⟨nonempty, rfl⟩, parsed⟩
            exact (parseRest_eq_ok small' nonempty).mp parsed
          · rintro ⟨taken, rfl⟩
            exact ⟨_, ⟨taken.rest, rfl⟩,
              (parseRest_eq_ok small' taken.rest).mpr ⟨taken, rfl⟩⟩

/-! ## What has been set -/

/-- The user and the password, unless the password is empty. -/
def keptUser : Option (CString × Option CString) →
    Option (CString × Option CString)
  | none => none
  | some (user, none) => some (user, none)
  | some (user, some password) =>
      if password = [] then none else some (user, some password)

/-- The host and the port, if both are there. -/
def keptHost : Option (CString × Option CString) → Option (CString × CString)
  | none => none
  | some (_, none) => none
  | some (host, some port) => if port = [] then none else some (host, port)

/-- The four fields of an authority. -/
structure SetsAuthority (url : EtchURL)
    (owner : Option (CString × Option CString))
    (place : Option (CString × CString)) : Prop where
  user : url.user = owner.map (·.1)
  password : url.password = owner.bind (·.2)
  host : url.host = place.map (·.1)
  port : url.port = place.map fun place => UInt16.ofInt (atoi place.2)

theorem SetsAuthority.putUser {url : EtchURL} (unset : SetsAuthority url none none)
    (pair : CString × Option CString) :
    SetsAuthority (url.putUser pair) (keptUser (some pair)) none := by
  obtain ⟨user, password⟩ := pair
  cases password with
  | none => exact ⟨rfl, unset.password, unset.host, unset.port⟩
  | some password =>
      unfold EtchURL.putUser keptUser
      dsimp only
      by_cases empty : password = []
      · rw [if_pos empty, if_pos empty]
        exact unset
      · rw [if_neg empty, if_neg empty]
        exact ⟨rfl, rfl, unset.host, unset.port⟩

theorem SetsAuthority.putHost {url : EtchURL}
    {user : Option (CString × Option CString)}
    (sets : SetsAuthority url user none) (pair : CString × Option CString) :
    SetsAuthority (url.putHost pair) user (keptHost (some pair)) := by
  obtain ⟨host, port⟩ := pair
  cases port with
  | none => exact sets
  | some port =>
      unfold EtchURL.putHost keptHost
      dsimp only
      by_cases empty : port = []
      · rw [if_pos empty, if_pos empty]
        exact sets
      · rw [if_neg empty, if_neg empty]
        exact ⟨sets.user, sets.password, rfl, rfl⟩

theorem outcome_authority (parts : Parts UInt8) :
    SetsAuthority (outcome parts) (keptUser (parts.userPassword byte))
      (keptHost (parts.hostPort byte)) := by
  have unset (url : EtchURL) (user : url.user = none)
      (password : url.password = none) (host : url.host = none)
      (port : url.port = none) : SetsAuthority url none none :=
    ⟨user, password, host, port⟩
  have setUri {url : EtchURL} {user : Option (CString × Option CString)}
      {host : Option (CString × CString)} (sets : SetsAuthority url user host)
      (uri : CString) : SetsAuthority (url.setUri uri) user host :=
    ⟨sets.user, sets.password, sets.host, sets.port⟩
  unfold outcome Parts.userPassword Parts.hostPort
  dsimp only
  refine setUri ?_ _
  cases parts.authority with
  | none => exact unset _ rfl rfl rfl rfl
  | some authority =>
      dsimp only [Option.bind_some, Option.map_some, putAuthority]
      cases cut (byte '@') authority with
      | mk user host =>
          cases host with
          | none => exact (unset _ rfl rfl rfl rfl).putHost _
          | some host => exact ((unset _ rfl rfl rfl rfl).putUser _).putHost _

theorem outcome_rest (parts : Parts UInt8) :
    (outcome parts).scheme = some parts.scheme ∧
      (outcome parts).uri = some parts.uri ∧
      (outcome parts).fragment = parts.fragment ∧
      (outcome parts).terms = tableOf parts.terms := by
  have putHost (url : EtchURL) (pair : CString × Option CString) :
      (url.putHost pair).scheme = url.scheme ∧
        (url.putHost pair).fragment = url.fragment ∧
        (url.putHost pair).terms = url.terms := by
    unfold EtchURL.putHost
    split
    · exact ⟨rfl, rfl, rfl⟩
    · split_ifs <;> exact ⟨rfl, rfl, rfl⟩
  have putUser (url : EtchURL) (pair : CString × Option CString) :
      (url.putUser pair).scheme = url.scheme ∧
        (url.putUser pair).fragment = url.fragment ∧
        (url.putUser pair).terms = url.terms := by
    unfold EtchURL.putUser
    split
    · exact ⟨rfl, rfl, rfl⟩
    · split_ifs <;> exact ⟨rfl, rfl, rfl⟩
  unfold outcome
  cases parts.authority with
  | none => exact ⟨rfl, rfl, rfl, rfl⟩
  | some authority =>
      dsimp only [setUri, putAuthority]
      cases cut (byte '@') authority with
      | mk user host =>
          cases host with
          | none =>
              obtain ⟨scheme, fragment, terms⟩ := putHost _ _
              exact ⟨scheme, rfl, fragment, terms⟩
          | some host =>
              obtain ⟨scheme, fragment, terms⟩ := putHost _ _
              obtain ⟨scheme', fragment', terms'⟩ := putUser _ _
              exact ⟨scheme.trans scheme', rfl, fragment.trans fragment',
                terms.trans terms'⟩

end EtchURL

end Etch.Cpp
