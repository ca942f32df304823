import Etch.Java.UrlTerms

/-!
# The class `URL`

A string is `scheme:[//[user[:password]@]host[:port]/]uri[;params][?terms]`
with an optional `#fragment`.  The delimiters are looked for in this order:
colon, number sign, question mark, semicolon, slash, at sign; what stands
between them is unescaped.
-/

namespace Etch.Java

/-- A `char` written down in the source. -/
def char (literal : Char) : UInt16 :=
  literal.toNat.toUInt16

namespace StringUtil

/-- `leftSplit( s, c )`; null is none. -/
def leftSplit (s : JavaString) (c : UInt16) :
    Option (JavaString × JavaString) :=
  match s.idxOf? c with
  | none => none
  | some i => some (s.take i, s.drop (i + 1))

def fromHex (c : UInt16) : Except Thrown Int32 :=
  if char '0' ≤ c ∧ c ≤ char '9' then
    .ok (Int32.ofNat c.toNat - Int32.ofNat '0'.toNat)
  else if char 'A' ≤ c ∧ c ≤ char 'F' then
    .ok (Int32.ofNat c.toNat - Int32.ofNat 'a'.toNat + 10)
  else if char 'a' ≤ c ∧ c ≤ char 'f' then
    .ok (Int32.ofNat c.toNat - Int32.ofNat 'a'.toNat + 10)
  else
    .error (.illegalArgumentException (text "bad hex char " ++ [c]))

/-- The int is one from 0 to 15, so that nothing is thrown. -/
def toHex (i : Fin 16) : UInt16 :=
  if i ≤ 9 then
    char '0' + i.val.toUInt16
  else
    char 'a' + i.val.toUInt16 - 10

end StringUtil

open StringUtil

/-! ## Decimal numbers -/

/-- `Character.digit( c, 10 )`, which depends on the version of Unicode for
the characters that are not ASCII. -/
structure Digits where
  digit : UInt16 → Option ℕ
  ascii : ∀ c, c < 128 → digit c =
    if char '0' ≤ c ∧ c ≤ char '9' then some (c.toNat - '0'.toNat) else none

/-- The digits that are ASCII, and no others. -/
def asciiDigits : Digits where
  digit c :=
    if char '0' ≤ c ∧ c ≤ char '9' then some (c.toNat - '0'.toNat) else none
  ascii _ _ := rfl

namespace Digits

variable (digits : Digits)

/-- The number that one or more digits stand for. -/
def number (s : JavaString) : Option ℕ :=
  if s = [] then none
  else s.foldlM (fun sum c => (digits.digit c).map (10 * sum + ·)) 0

/-- `Integer.parseInt( s )`; a `NumberFormatException` is none. -/
def parseInt (s : JavaString) : Option ℤ :=
  match s with
  | [] => none
  | sign :: rest =>
      if sign = char '-' then
        match digits.number rest with
        | some n => if n ≤ 2 ^ 31 then some (-n) else none
        | none => none
      else
        match digits.number (if sign = char '+' then rest else s) with
        | some n => if n < 2 ^ 31 then some n else none
        | none => none

end Digits

/-- `StringBuffer.append( port )` -/
def decimal (n : ℕ) : JavaString :=
  (Nat.toDigits 10 n).map char

/-! ## Escaping -/

namespace Url

def isEscaped (c : UInt16) : Bool :=
  if char '0' ≤ c ∧ c ≤ char '9' then false
  else if char 'A' ≤ c ∧ c ≤ char 'Z' then false
  else if char 'a' ≤ c ∧ c ≤ char 'z' then false
  else c ∉ text " ,./!$^*()_-\x7b\x7d[]|\\"

/-- What one character is written as. -/
def escapeChar (c : UInt16) : JavaString :=
  if isEscaped c then
    [char '%', toHex (Fin.ofNat 16 (c.toNat / 16)),
      toHex (Fin.ofNat 16 c.toNat)]
  else if c = char ' ' then
    [char '+']
  else
    [c]

/-- `escape( sb, s )` -/
def escape : Option JavaString → JavaString
  | none => text "null"
  | some s => s.flatMap escapeChar

/-- `(char) (high << 4 | low)` -/
def escapedChar (high low : Int32) : UInt16 :=
  (high <<< 4 ||| low).toInt16.toUInt16

def unescape : JavaString → Except Thrown JavaString
  | [] => .ok []
  | c :: rest =>
      if c = char '%' then
        match rest with
        | c1 :: c2 :: rest => do
            let high ← fromHex c1
            let low ← fromHex c2
            return escapedChar high low :: (← unescape rest)
        | _ => .error (.buffer .indexOutOfBoundsException)
      else if c = char '+' then do
        return char ' ' :: (← unescape rest)
      else do
        return c :: (← unescape rest)

end Url

/-! ## The fields -/

/-- The port is from 0 to 65535. -/
structure Url where
  scheme : Option JavaString := none
  user : Option JavaString := none
  password : Option JavaString := none
  host : Option JavaString := none
  port : Option (Fin 65536) := none
  uri : Option JavaString := none
  params : Option (List JavaString) := none
  terms : Terms := none
  fragment : Option JavaString := none
deriving DecidableEq

namespace Url

def checkNotBlank (name value : JavaString) : Except Thrown Unit :=
  if value.length = 0 then
    .error (.illegalArgumentException (name ++ text " is blank"))
  else
    .ok ()

def setScheme (url : Url) (scheme : JavaString) : Except Thrown Url := do
  checkNotBlank (text "scheme") scheme
  return { url with scheme := some scheme }

def setUser (url : Url) (user : JavaString) : Except Thrown Url := do
  checkNotBlank (text "user") user
  return { url with user := some user }

def setPassword (url : Url) (password : JavaString) : Url :=
  { url with password := some password }

def setHost (url : Url) (host : JavaString) : Except Thrown Url := do
  checkNotBlank (text "host") host
  return { url with host := some host }

def setPort (url : Url) (port : ℤ) : Except Thrown Url :=
  if small : 0 ≤ port ∧ port ≤ 65535 then
    .ok { url with port := some ⟨port.toNat, by omega⟩ }
  else
    .error (.illegalArgumentException (text "port < 0 || port > 65535"))

def setUri (url : Url) (uri : JavaString) : Url :=
  { url with uri := some uri }

def setFragment (url : Url) (fragment : JavaString) : Except Thrown Url := do
  checkNotBlank (text "fragment") fragment
  return { url with fragment := some fragment }

/-- The params once `ensureParams` has been called. -/
def ensureParams (url : Url) : List JavaString :=
  url.params.getD []

def addParam (url : Url) (param : JavaString) : Url :=
  { url with params := some (url.ensureParams ++ [param]) }

def hasParams (url : Url) : Bool :=
  match url.params with
  | none => false
  | some params => 0 < params.length

def addTerm (url : Url) (name value : JavaString) : Except Thrown Url := do
  let terms ← url.terms.addTerm (some name) (some value)
  return { url with terms }

/-! ## Parsing -/

/-- `checkNotInteger( name, value )`, and the integer if it is one. -/
def checkNotInteger (digits : Digits) (name value : JavaString) :
    Except Thrown ℤ := do
  checkNotBlank name value
  match digits.parseInt value with
  | some n => return n
  | none => .error (.illegalArgumentException (name ++ text " is not integer"))

/-- The rest behind the first delimiter is shorter. -/
theorem leftSplit_length {s : JavaString} {c : UInt16}
    {x : JavaString × JavaString} (split : leftSplit s c = some x) :
    x.2.length < s.length := by
  unfold leftSplit at split
  cases found : s.idxOf? c with
  | none =>
      rw [found] at split
      exact nomatch split
  | some i =>
      rw [found] at split
      obtain rfl := Option.some.inj split
      have nonempty : s ≠ [] := by
        rintro rfl
        exact nomatch found
      have positive := List.length_pos_iff.mpr nonempty
      rw [List.length_drop]
      omega

/-- s is `name[=value]`. -/
def parseTerm (url : Url) (s : JavaString) : Except Thrown Url :=
  if s.length = 0 then
    .ok url
  else
    let url := { url with terms := some url.terms.ensureTerms }
    match leftSplit s (char '=') with
    | some x => do url.addTerm (← unescape x.1) (← unescape x.2)
    | none => do url.addTerm (← unescape s) []

/-- The loop of `parseTerms` and what follows it. -/
def parseTermsLoop (url : Url) (s : JavaString) : Except Thrown Url :=
  match _split : leftSplit s (char '&') with
  | some x => do parseTermsLoop (← url.parseTerm x.1) x.2
  | none => url.parseTerm s
termination_by s.length
decreasing_by exact leftSplit_length _split

/-- s is `term[&term]*`. -/
def parseTerms (url : Url) (s : JavaString) : Except Thrown Url :=
  if s.length = 0 then
    .ok url
  else
    url.parseTermsLoop s

/-- The loop of `parseParams` and what follows it. -/
def parseParamsLoop (url : Url) (s : JavaString) : Except Thrown Url :=
  match _split : leftSplit s (char ';') with
  | some x => do parseParamsLoop (url.addParam (← unescape x.1)) x.2
  | none => do return url.addParam (← unescape s)
termination_by s.length
decreasing_by exact leftSplit_length _split

/-- s is `param[;param]*`. -/
def parseParams (url : Url) (s : JavaString) : Except Thrown Url :=
  if s.length = 0 then
    .ok url
  else
    parseParamsLoop { url with params := some url.ensureParams } s

/-- s is `host[:port]`. -/
def parseHostPort (digits : Digits) (url : Url) (s : JavaString) :
    Except Thrown Url :=
  match leftSplit s (char ':') with
  | some x => do
      let url ← url.setHost (← unescape x.1)
      let port ← checkNotInteger digits (text "port") (← unescape x.2)
      url.setPort port
  | none => do url.setHost (← unescape s)

/-- s is `user[:password]`. -/
def parseUserPassword (url : Url) (s : JavaString) : Except Thrown Url :=
  match leftSplit s (char ':') with
  | some x => do
      let url ← url.setUser (← unescape x.1)
      return url.setPassword (← unescape x.2)
  | none => do url.setUser (← unescape s)

/-- s is `[user[:password]@]host[:port]`. -/
def parseHost (digits : Digits) (url : Url) (s : JavaString) :
    Except Thrown Url :=
  match leftSplit s (char '@') with
  | some x => do
      let url ← url.parseUserPassword x.1
      url.parseHostPort digits x.2
  | none => url.parseHostPort digits s

/-- s is `[//[user[:password]@]host[:port]/]uri[;params][?terms][#fragment]`,
and the fragment is taken off. -/
def takeFragment (url : Url) (s : JavaString) :
    Except Thrown (Url × JavaString) :=
  match leftSplit s (char '#') with
  | some x => do return (← url.setFragment (← unescape x.2), x.1)
  | none => .ok (url, s)

/-- s is `[//[user[:password]@]host[:port]/]uri[;params][?terms]`. -/
def takeTerms (url : Url) (s : JavaString) :
    Except Thrown (Url × JavaString) :=
  match leftSplit s (char '?') with
  | some x => do return (← url.parseTerms x.2, x.1)
  | none => .ok (url, s)

/-- s is `[//[user[:password]@]host[:port]/]uri[;params]`. -/
def takeParams (url : Url) (s : JavaString) :
    Except Thrown (Url × JavaString) :=
  match leftSplit s (char ';') with
  | some x => do return (← url.parseParams x.2, x.1)
  | none => .ok (url, s)

/-- s is `[//[user[:password]@]host[:port]/]uri`. -/
def takeHost (digits : Digits) (url : Url) (s : JavaString) :
    Except Thrown (Url × JavaString) :=
  if (text "//").isPrefixOf s then
    let s := s.drop 2
    match leftSplit s (char '/') with
    | some x => do return (← url.parseHost digits x.1, x.2)
    | none => do return (← url.parseHost digits s, [])
  else
    .ok (url, s)

def parse (digits : Digits) (s : JavaString) : Except Thrown Url :=
  match leftSplit s (char ':') with
  | none => .error (.illegalArgumentException (text "missing scheme"))
  | some x => do
      let url ← Url.setScheme {} (← unescape x.1)
      let (url, s) ← url.takeFragment x.2
      let (url, s) ← url.takeTerms s
      let (url, s) ← url.takeParams s
      let (url, s) ← url.takeHost digits s
      return url.setUri (← unescape s)

/-- `URL( urlStr )` -/
def ofString (digits : Digits) : Option JavaString → Except Thrown Url
  | none => .ok {}
  | some urlStr =>
      if 0 < urlStr.length then
        parse digits urlStr
      else
        .ok {}

/-! ## Printing -/

/-- The order of the key set of a `HashMap`, which can be any. -/
structure KeyOrder (terms : Terms) where
  names : List JavaString
  nodup : names.Nodup
  mem_iff : ∀ name,
    name ∈ names ↔ (terms.ensureTerms.lookup name).isSome = true

/-- `getParams()` -/
def getParams (url : Url) : List JavaString :=
  url.params.getD []

def paramsToString (url : Url) : JavaString :=
  url.getParams.flatMap fun p => char ';' :: escape (some p)

/-- Each value of each name with its separator. -/
def termsFrom (sep : UInt16) : List (JavaString × JavaString) → JavaString
  | [] => []
  | (n, v) :: rest =>
      sep :: escape (some n) ++ char '=' :: escape (some v) ++
        termsFrom (char '&') rest

/-- The values of the names in the order in which they are printed. -/
def KeyOrder.pairs {terms : Terms} (order : KeyOrder terms) :
    List (JavaString × JavaString) :=
  order.names.flatMap fun n => (terms.values n).map fun v => (n, v)

def termsToString (url : Url) (order : KeyOrder url.terms) : JavaString :=
  termsFrom (char '?') order.pairs

/-- The user and the password in front of a host. -/
def userToString (url : Url) : JavaString :=
  match url.user with
  | none => []
  | some user =>
      escape (some user) ++
        (match url.password with
        | none => []
        | some password => char ':' :: escape (some password)) ++
        [char '@']

def hostToString (url : Url) : JavaString :=
  match url.host with
  | none => []
  | some host =>
      text "//" ++ url.userToString ++ escape (some host) ++
        (match url.port with
        | none => []
        | some port => char ':' :: decimal port) ++
        [char '/']

def toString (url : Url) (order : KeyOrder url.terms) : JavaString :=
  escape url.scheme ++ char ':' :: url.hostToString ++
    (match url.uri with
    | none => []
    | some uri => escape (some uri)) ++
    (if url.hasParams then url.paramsToString else []) ++
    (if url.terms.hasTerms then url.termsToString order else []) ++
    (match url.fragment with
    | none => []
    | some fragment => char '#' :: escape (some fragment))

end Url

end Etch.Java
