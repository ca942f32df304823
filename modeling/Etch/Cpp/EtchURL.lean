import Etch.Cpp.Types
import Etch.Library.Splitting
import Mathlib.Data.Finmap

/-!
# The class `EtchURL`

A string is `scheme:[//[user[:password]@]host[:port]/]uri[;params][?terms]`
with an optional `#fragment`.  A part is cut out by `substring`, which has no
empty string at the end of another.
-/

namespace Etch.Cpp

/-- The characters of a C string, without the one that ends it. -/
abbrev CString : Type :=
  List UInt8

/-- A `char` written down in the source. -/
def byte (literal : Char) : UInt8 :=
  literal.toNat.toUInt8

namespace EtchString

/-- `leftFind(c)`; -1 is none. -/
def leftFind (s : CString) (c : UInt8) : Option ℕ :=
  s.idxOf? c

/-- The result of `leftFind` as a `uint32_t`. -/
def asLength : Option ℕ → ℕ
  | some result => result
  | none => 2 ^ 32 - 1

/-- The result of `leftFind`, plus one. -/
def next : Option ℕ → ℕ
  | some result => result + 1
  | none => 0

/-- `substring(start, length, dest)` -/
def substring (s : CString) (start length : ℕ) : Except Status CString :=
  if s.length ≤ start ∨ s.length < start + length then
    .error .ETCH_EINVAL
  else
    .ok ((s.drop start).take length)

end EtchString

open EtchString

/-- `isspace(c)` -/
def isspace (c : UInt8) : Bool :=
  c = 32 ∨ 9 ≤ c ∧ c ≤ 13

/-- `isdigit(c)` -/
def isdigit (c : UInt8) : Bool :=
  byte '0' ≤ c ∧ c ≤ byte '9'

/-- The number that the digits in front stand for. -/
def digitsValue (s : CString) : ℕ :=
  (s.takeWhile isdigit).foldl
    (fun sum c => 10 * sum + (c.toNat - '0'.toNat)) 0

/-- `atoi(s)`, which is not defined where the number is no `int`. -/
def atoi (s : CString) : ℤ :=
  match s.dropWhile isspace with
  | [] => 0
  | sign :: rest =>
      if sign = byte '-' then
        -digitsValue rest
      else if sign = byte '+' then
        digitsValue rest
      else
        digitsValue (sign :: rest)

/-- `EtchHashTable<EtchString, EtchString>`, whose `put` replaces the value of
a key. -/
abbrev UrlTable : Type :=
  Finmap fun _ : CString => CString

/-- A string that has not been set is none, and so is the port. -/
structure EtchURL where
  scheme : Option CString := none
  user : Option CString := none
  password : Option CString := none
  host : Option CString := none
  port : Option UInt16 := none
  uri : Option CString := none
  params : List CString := []
  terms : UrlTable := ∅
  fragment : Option CString := none

namespace EtchURL

/-- The status of a call that returns early, and what has been set so far. -/
abbrev Returned : Type :=
  Status × EtchURL

def setScheme (url : EtchURL) (scheme : CString) : EtchURL :=
  { url with scheme := some scheme }

def setUser (url : EtchURL) (user : CString) : EtchURL :=
  { url with user := some user }

def setPassword (url : EtchURL) (password : CString) : EtchURL :=
  { url with password := some password }

def setHost (url : EtchURL) (host : CString) : EtchURL :=
  { url with host := some host }

def setPort (url : EtchURL) (port : ℤ) : EtchURL :=
  { url with port := some (UInt16.ofInt port) }

def setUri (url : EtchURL) (uri : CString) : EtchURL :=
  { url with uri := some uri }

def setFragment (url : EtchURL) (fragment : CString) : EtchURL :=
  { url with fragment := some fragment }

def addParam (url : EtchURL) (param : CString) : EtchURL :=
  { url with params := url.params ++ [param] }

def addTerm (url : EtchURL) (name value : CString) : EtchURL :=
  { url with terms := url.terms.insert name value }

/-- The `substring` before and the one behind what `leftFind` has found. -/
def substrings (s : CString) (result : Option ℕ) :
    Except Status (CString × CString) := do
  let x0 ← substring s 0 (asLength result)
  let x1 ← substring s (next result) (s.length - next result)
  return (x0, x1)

/-- What is left is shorter. -/
theorem substrings_length {s : CString} {result : ℕ} {x : CString × CString}
    (split : substrings s (some result) = .ok x) :
    x.2.length < s.length := by
  unfold substrings at split
  cases first : substring s 0 (asLength (some result)) with
  | error status =>
      rw [first] at split
      exact nomatch split
  | ok x0 =>
      rw [first] at split
      unfold substring next at split
      by_cases short : s.length ≤ result + 1 ∨
          s.length < result + 1 + (s.length - (result + 1))
      · rw [if_pos short] at split
        exact nomatch split
      · rw [if_neg short] at split
        obtain rfl := Except.ok.inj split
        rw [List.length_take, List.length_drop]
        change min (s.length - (result + 1)) (s.length - (result + 1)) < _
        omega

/-- s is `name[=value]`. -/
def parseTerm (url : EtchURL) (s : CString) : Returned :=
  if s.length = 0 then
    (.ETCH_OK, url)
  else
    let result := leftFind s (byte '=')
    match substrings s result with
    | .error _ => (.ETCH_ERROR, url)
    | .ok x =>
        (.ETCH_OK, if result ≠ none then url.addTerm x.1 x.2 else url)

/-- The loop of `parseTerms` and what follows it.  What becomes of a term in
front of another is not looked at. -/
def parseTermsLoop (url : EtchURL) (s : CString) : Returned :=
  match leftFind s (byte '&') with
  | none => url.parseTerm s
  | some result =>
      match _split : substrings s (some result) with
      | .error _ => (.ETCH_ERROR, url)
      | .ok x => parseTermsLoop (url.parseTerm x.1).2 x.2
termination_by s.length
decreasing_by exact substrings_length _split

/-- s is `term[&term]*`. -/
def parseTerms (url : EtchURL) (s : CString) : Returned :=
  if s.length = 0 then
    (.ETCH_OK, url)
  else
    url.parseTermsLoop s

/-- The loop of `parseParams` and what follows it. -/
def parseParamsLoop (url : EtchURL) (s : CString) : Returned :=
  match leftFind s (byte ';') with
  | none => (.ETCH_OK, url.addParam s)
  | some result =>
      match _split : substrings s (some result) with
      | .error _ => (.ETCH_ERROR, url)
      | .ok x => parseParamsLoop (url.addParam x.1) x.2
termination_by s.length
decreasing_by exact substrings_length _split

/-- s is `param[;param]*`. -/
def parseParams (url : EtchURL) (s : CString) : Returned :=
  if s.length = 0 then
    (.ETCH_OK, url)
  else
    url.parseParamsLoop s

/-- s is `host[:port]`.  The address of an array is never null, so that the
branch for a host alone is never taken. -/
def parseHostPort (url : EtchURL) (s : CString) : Returned :=
  let result := leftFind s (byte ':')
  match substrings s result with
  | .error _ => (.ETCH_ERROR, url)
  | .ok x => (.ETCH_OK, (url.setHost x.1).setPort (atoi x.2))

/-- s is `user[:password]`. -/
def parseUserPassword (url : EtchURL) (s : CString) : Returned :=
  let result := leftFind s (byte ':')
  if result ≠ none then
    match substrings s result with
    | .error _ => (.ETCH_ERROR, url)
    | .ok x => (.ETCH_OK, (url.setUser x.1).setPassword x.2)
  else
    (.ETCH_OK, url.setUser s)

/-- s is `[user[:password]@]host[:port]`.  What becomes of the two is not
looked at. -/
def parseHost (url : EtchURL) (s : CString) : Returned :=
  let result := leftFind s (byte '@')
  if result ≠ none then
    match substrings s result with
    | .error _ => (.ETCH_ERROR, url)
    | .ok x => (.ETCH_OK, ((url.parseUserPassword x.1).2.parseHostPort x.2).2)
  else
    (.ETCH_OK, (url.parseHostPort s).2)

/-- Goes on with what a call has set, unless it has failed. -/
def orReturn : Returned → Except Returned EtchURL
  | (.ETCH_OK, url) => .ok url
  | (status, url) => .error (status, url)

/-- `return error_result`, where it is not `ETCH_OK`. -/
def orReturnWith {α : Type} (url : EtchURL) :
    Except Status α → Except Returned α
  | .ok value => .ok value
  | .error status => .error (status, url)

/-- s is `[//[user[:password]@]host[:port]/]uri[;params][?terms][#fragment]`,
and the fragment is taken off. -/
def takeFragment (url : EtchURL) (s : CString) :
    Except Returned (EtchURL × CString) :=
  let result := leftFind s (byte '#')
  if result ≠ none then do
    let x ← orReturnWith url (substrings s result)
    return (url.setFragment x.2, x.1)
  else
    .ok (url, s)

/-- s is `[//[user[:password]@]host[:port]/]uri[;params][?terms]`. -/
def takeTerms (url : EtchURL) (s : CString) :
    Except Returned (EtchURL × CString) :=
  let result := leftFind s (byte '?')
  if result ≠ none then do
    let x ← orReturnWith url (substrings s result)
    let url ← orReturn (url.parseTerms x.2)
    return (url, x.1)
  else
    .ok (url, s)

/-- s is `[//[user[:password]@]host[:port]/]uri[;params]`. -/
def takeParams (url : EtchURL) (s : CString) :
    Except Returned (EtchURL × CString) :=
  let result := leftFind s (byte ';')
  if result ≠ none then do
    let x ← orReturnWith url (substrings s result)
    let url ← orReturn (url.parseParams x.2)
    return (url, x.1)
  else
    .ok (url, s)

/-- s is `[//[user[:password]@]host[:port]/]uri`. -/
def takeHost (url : EtchURL) (s : CString) :
    Except Returned (EtchURL × CString) :=
  if [byte '/', byte '/'].isPrefixOf s then
    let s := s.drop 2
    let result := leftFind s (byte '/')
    if result ≠ none then do
      let x ← orReturnWith url (substrings s result)
      let url ← orReturn (url.parseHost x.1)
      return (url, x.2)
    else do
      let url ← orReturn (url.parseHost s)
      return (url, [])
  else
    .ok (url, s)

def parse (url : EtchURL) (s : CString) : Except Returned EtchURL := do
  let result := leftFind s (byte ':')
  if result = none then
    .error (.ETCH_ERROR, url)
  else do
    let x ← orReturnWith url (substrings s result)
    let (url, s) ← (url.setScheme x.1).takeFragment x.2
    let (url, s) ← url.takeTerms s
    let (url, s) ← url.takeParams s
    let (url, s) ← url.takeHost s
    return url.setUri s

/-- `EtchURL(urlStr)`, with the status of `parse`. -/
def ofString (urlStr : CString) : Returned :=
  if 0 < urlStr.length then
    match parse {} urlStr with
    | .ok url => (.ETCH_OK, url)
    | .error (status, url) =>
        (status, { url with
          fragment := some []
          host := some []
          password := some []
          port := some 0
          scheme := some []
          uri := some []
          user := some [] })
  else
    (.ETCH_OK, {})

end EtchURL

end Etch.Cpp
