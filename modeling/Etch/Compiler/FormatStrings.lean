import Etch.Compiler.Constants

/-!
# Format strings of the Etch compiler

The option `ToString` has a format: strings with fields in braces between
them.  It is written as a string of the language, whose escapes are undone
when it is read; those of the format are undone when that is parsed.
-/

namespace Etch.Compiler

open Etch.Java

def quotationMark : UInt16 := 34
def backslash : UInt16 := 92
def openBrace : UInt16 := 123
def closeBrace : UInt16 := 125
def carriageReturn : UInt16 := 13
def lineFeed : UInt16 := 10
def tabulator : UInt16 := 9

/-- What the code that reads strings throws. -/
inductive StringFault where
  | ioException (message : JavaString)
  | illegalArgumentException (message : JavaString)
  | stringIndexOutOfBoundsException
  | parseException (message : JavaString)

/-! ## Strings of the language -/

/-- `fromHex( c )`, where the end of the string is none -/
def fromHex (c : Option UInt16) : Except StringFault ℕ :=
  match c with
  | none => .error (.ioException (text "bad hex char: -1"))
  | some c =>
      if char '0' ≤ c ∧ c ≤ char '9' then .ok (c.toNat - '0'.toNat)
      else if char 'a' ≤ c ∧ c ≤ char 'f' then
        .ok (c.toNat - 'a'.toNat + 10)
      else if char 'A' ≤ c ∧ c ≤ char 'F' then
        .ok (c.toNat - 'A'.toNat + 10)
      else .error (.ioException (text "bad hex char: " ++
        text (toString c.toNat)))

/-- What a plain escape stands for. -/
def plainEscape (c : UInt16) : Option UInt16 :=
  if c = quotationMark then some quotationMark
  else if c = backslash then some backslash
  else if c = char 't' then some tabulator
  else if c = char 'r' then some carriageReturn
  else if c = char 'n' then some lineFeed
  else none

/-- The loop of `unescapeStr( s )`, which has appended `sb` up to now. -/
def unescape (sb : JavaString) : JavaString → Except StringFault JavaString
  | [] => .ok sb
  | c :: rest =>
      if c ≠ backslash then
        unescape (sb ++ [c]) rest
      else
        match rest with
        | [] => .error (.ioException (text "bad escape char: -1"))
        | k :: rest =>
            if k = char 'u' then
              match rest with
              | c1 :: c2 :: c3 :: c4 :: rest => do
                  let h1 ← fromHex c1
                  let h2 ← fromHex c2
                  let h3 ← fromHex c3
                  let h4 ← fromHex c4
                  let c := ((h1 * 16 + h2) * 16 + h3) * 16 + h4
                  unescape (sb ++ [c.toUInt16]) rest
              | short => do
                  let _ ← fromHex short[0]?
                  let _ ← fromHex short[1]?
                  let _ ← fromHex short[2]?
                  let _ ← fromHex short[3]?
                  .ok sb
            else
              match plainEscape k with
              | some c => unescape (sb ++ [c]) rest
              | none => .error (.ioException (text "bad escape char: " ++
                  text (toString k.toNat)))

/-- `unescapeStr( s )` -/
def unescapeStr (s : JavaString) : Except StringFault JavaString :=
  if s.head? ≠ some quotationMark ∨ s.getLast? ≠ some quotationMark then
    .error (.illegalArgumentException (text "string image is not quoted"))
  else if s.length < 2 then
    .error .stringIndexOutOfBoundsException
  else
    unescape [] (s.drop 1).dropLast

/-- `fixString( t )` -/
def fixString (t : Token) : Except StringFault Token :=
  if t.kind ≠ .str then
    .ok t
  else
    match unescapeStr t.image with
    | .ok image => .ok { t with image := image }
    | .error (.ioException message) =>
        .error (.parseException (text "Problem with string '" ++ message ++
          text "' at line " ++ text (toString t.beginLine)))
    | .error fault => .error fault

/-! ## Formats -/

inductive FmtItem where
  | string (value : JavaString)
  | field (value : JavaString)
deriving DecidableEq

namespace ToString

/-- A string item is added unless it is empty. -/
def addString (list : List FmtItem) (sb : JavaString) : List FmtItem :=
  if sb.length > 0 then list ++ [.string sb] else list

def addField (list : List FmtItem) (sb : JavaString) : List FmtItem :=
  if sb.length > 0 then list ++ [.field sb] else list

/-- What an escaped character of a format stands for. -/
def formatEscape (c : UInt16) : Option UInt16 :=
  if c = char 't' then some tabulator
  else if c = char 'r' then some carriageReturn
  else if c = char 'n' then some lineFeed
  else if c = openBrace then some openBrace
  else if c = backslash then some backslash
  else none

/-- `stringItem( list, rdr )`, which has appended `sb` up to now: the string,
and what is left behind an open brace if there is one. -/
def stringItem (sb : JavaString) (escape : Bool) : JavaString →
    Except StringFault (JavaString × Option JavaString)
  | [] =>
      if escape then
        .error (.ioException (text "partial escape at end of string"))
      else
        .ok (sb, none)
  | c :: rest =>
      if !escape then
        if c = openBrace then .ok (sb, some rest)
        else if c = backslash then stringItem sb true rest
        else stringItem (sb ++ [c]) false rest
      else
        match formatEscape c with
        | some c => stringItem (sb ++ [c]) false rest
        | none => .error (.ioException
            (text "bad escape. expecting one of t, r, n, \x7b, or \\. got '" ++
              [c] ++ text "'"))

/-- `fieldItem( list, rdr )`: the field, and what is left behind it -/
def fieldItem (sb : JavaString) : JavaString →
    Except StringFault (JavaString × JavaString)
  | [] => .error (.ioException (text "unclosed field item at end of string"))
  | c :: rest =>
      if c = closeBrace then .ok (sb, rest)
      else fieldItem (sb ++ [c]) rest

theorem stringItem_shorter {sb s text rest : JavaString} {escape : Bool}
    (read : stringItem sb escape s = .ok (text, some rest)) :
    rest.length < s.length := by
  induction s generalizing sb escape with
  | nil =>
      rw [stringItem] at read
      split_ifs at read
      cases read
  | cons c s ih =>
      rw [stringItem] at read
      split_ifs at read
      · cases read
        exact Nat.lt_succ_self _
      · exact (ih read).trans (Nat.lt_succ_self _)
      · exact (ih read).trans (Nat.lt_succ_self _)
      · cases escaped : formatEscape c with
        | none =>
            rw [escaped] at read
            cases read
        | some d =>
            rw [escaped] at read
            exact (ih read).trans (Nat.lt_succ_self _)

theorem fieldItem_shorter {sb s text rest : JavaString}
    (read : fieldItem sb s = .ok (text, rest)) :
    rest.length < s.length := by
  induction s generalizing sb with
  | nil => cases read
  | cons c s ih =>
      rw [fieldItem] at read
      split_ifs at read
      · cases read
        exact Nat.lt_succ_self _
      · exact (ih read).trans (Nat.lt_succ_self _)

/-- The loop of `parse( s )` -/
def parseItems (list : List FmtItem) (s : JavaString) :
    Except StringFault (List FmtItem) :=
  match first : stringItem [] false s with
  | .error fault => .error fault
  | .ok (string, none) => .ok (addString list string)
  | .ok (string, some rest) =>
      match second : fieldItem [] rest with
      | .error fault => .error fault
      | .ok (field, rest') =>
          have := stringItem_shorter first
          have := fieldItem_shorter second
          parseItems (addField (addString list string) field) rest'
termination_by s.length

/-- A quotation mark at the start is dropped, and then one at the end. -/
def strip (s : JavaString) : JavaString :=
  let s := if s.head? = some quotationMark then s.drop 1 else s
  if s.getLast? = some quotationMark then s.dropLast else s

/-- `parse( s )` -/
def parse (s : JavaString) : Except StringFault (List FmtItem) :=
  parseItems [] (strip s)

/-- `new ToString( name, args )`, with the line of the name -/
def new (beginLine : ℕ) (args : List Token) :
    Except StringFault (List FmtItem) :=
  match args with
  | [arg] =>
      if arg.kind ≠ .str then
        .error (.parseException
          (text "ToString accepts one string argument at line " ++
            text (toString arg.beginLine)))
      else
        match parse arg.image with
        | .ok format => .ok format
        | .error (.ioException message) =>
            .error (.parseException
              (text "ToString: problem with format string at line " ++
                text (toString arg.beginLine) ++ text ": " ++ message))
        | .error fault => .error fault
  | _ =>
      .error (.parseException
        (text "ToString accepts one string argument at line " ++
          text (toString beginLine)))

end ToString

/-! ## How strings and formats are written -/

/-- The ways to write a character in a string of the language. -/
inductive Written : UInt16 → JavaString → Prop where
  | plain {c : UInt16}
      (ordinary : c ∉ [quotationMark, backslash, carriageReturn, lineFeed]) :
      Written c [c]
  | escaped {c k : UInt16} (is : plainEscape k = some c) :
      Written c [backslash, k]
  | unicode {c1 c2 c3 c4 : UInt16} {h1 h2 h3 h4 : ℕ}
      (first : fromHex c1 = .ok h1) (second : fromHex c2 = .ok h2)
      (third : fromHex c3 = .ok h3) (fourth : fromHex c4 = .ok h4) :
      Written (((h1 * 16 + h2) * 16 + h3) * 16 + h4).toUInt16
        [backslash, char 'u', c1, c2, c3, c4]

/-- What stands between the quotation marks. -/
inductive Body : JavaString → JavaString → Prop where
  | nil : Body [] []
  | cons {c : UInt16} {s piece body : JavaString} (written : Written c piece)
      (rest : Body s body) : Body (c :: s) (piece ++ body)

/-- A token `STR` for a string. -/
def Literal (s image : JavaString) : Prop :=
  ∃ body, Body s body ∧ image = quotationMark :: (body ++ [quotationMark])

/-- One way to write a character. -/
def quoteChar (c : UInt16) : JavaString :=
  if c = quotationMark then [backslash, quotationMark]
  else if c = backslash then [backslash, backslash]
  else if c = carriageReturn then [backslash, char 'r']
  else if c = lineFeed then [backslash, char 'n']
  else [c]

/-- One way to write a string. -/
def quoted (s : JavaString) : JavaString :=
  quotationMark :: (s.flatMap quoteChar ++ [quotationMark])

namespace ToString

def escapeChar (c : UInt16) : JavaString :=
  if c = tabulator then [backslash, char 't']
  else if c = carriageReturn then [backslash, char 'r']
  else if c = lineFeed then [backslash, char 'n']
  else if c = openBrace then [backslash, openBrace]
  else if c = backslash then [backslash, backslash]
  else [c]

def write : List FmtItem → JavaString
  | [] => []
  | .string value :: rest => value.flatMap escapeChar ++ write rest
  | .field value :: rest =>
      openBrace :: (value ++ closeBrace :: write rest)

/-- Items that a format can have. -/
structure WellFormed (items : List FmtItem) : Prop where
  strings : ∀ value, .string value ∈ items → value ≠ []
  fields : ∀ value, .field value ∈ items →
    value ≠ [] ∧ closeBrace ∉ value
  apart : items.IsChain fun item next =>
    ∀ value value', item = .string value → next ≠ .string value'

end ToString

/-! ## The escapes of the language -/

theorem written_quoteChar (c : UInt16) : Written c (quoteChar c) := by
  unfold quoteChar
  split_ifs with quote back carriage feed
  · subst quote
    exact .escaped rfl
  · subst back
    exact .escaped rfl
  · subst carriage
    exact .escaped rfl
  · subst feed
    exact .escaped rfl
  · exact .plain (by simp [quote, back, carriage, feed])

theorem literal_quoted (s : JavaString) : Literal s (quoted s) := by
  refine ⟨s.flatMap quoteChar, ?_, rfl⟩
  induction s with
  | nil => exact .nil
  | cons c s ih => exact .cons (written_quoteChar c) ih

theorem unescape_plain {c : UInt16} (other : c ≠ backslash)
    (sb rest : JavaString) :
    unescape sb (c :: rest) = unescape (sb ++ [c]) rest := by
  rw [unescape.eq_def]
  exact if_pos other

theorem unescape_escaped {c k : UInt16} (is : plainEscape k = some c)
    (sb rest : JavaString) :
    unescape sb (backslash :: k :: rest) = unescape (sb ++ [c]) rest := by
  have other : k ≠ char 'u' := by
    rintro rfl
    cases is
  rw [unescape.eq_def]
  dsimp only
  rw [if_neg (by simp), if_neg other, is]

theorem unescape_unicode {c1 c2 c3 c4 : UInt16} {h1 h2 h3 h4 : ℕ}
    (first : fromHex c1 = .ok h1) (second : fromHex c2 = .ok h2)
    (third : fromHex c3 = .ok h3) (fourth : fromHex c4 = .ok h4)
    (sb rest : JavaString) :
    unescape sb (backslash :: char 'u' :: c1 :: c2 :: c3 :: c4 :: rest) =
      unescape
        (sb ++ [(((h1 * 16 + h2) * 16 + h3) * 16 + h4).toUInt16]) rest := by
  rw [unescape.eq_def]
  dsimp only
  rw [if_neg (by simp), if_pos rfl, first, second, third, fourth]
  rfl

theorem unescape_body {s body : JavaString} (written : Body s body)
    (sb : JavaString) : unescape sb body = .ok (sb ++ s) := by
  induction written generalizing sb with
  | nil => rw [unescape, List.append_nil]
  | @cons c s piece body written rest ih =>
      have next : unescape (sb ++ [c]) body = .ok (sb ++ c :: s) := by
        rw [ih, List.append_assoc, List.singleton_append]
      cases written with
      | plain ordinary =>
          have other : c ≠ backslash := by
            rintro rfl
            simp at ordinary
          exact (unescape_plain other sb body).trans next
      | escaped is => exact (unescape_escaped is sb body).trans next
      | unicode first second third fourth =>
          exact (unescape_unicode first second third fourth sb body).trans
            next

/-- The lexer reads the string that a literal stands for. -/
theorem fixString_literal {s image : JavaString} (literal : Literal s image)
    (beginLine : ℕ) :
    fixString ⟨.str, image, beginLine⟩ = .ok ⟨.str, s, beginLine⟩ := by
  obtain ⟨body, written, rfl⟩ := literal
  have ends : (quotationMark :: (body ++ [quotationMark])).getLast? =
      some quotationMark := by
    rw [← List.cons_append, List.getLast?_append_of_ne_nil _ (by simp)]
    rfl
  have inside : ((quotationMark :: (body ++ [quotationMark])).drop
      1).dropLast = body := by
    simp
  have read : unescapeStr (quotationMark :: (body ++ [quotationMark])) =
      .ok s := by
    rw [unescapeStr, if_neg (by simp [ends]), if_neg (by simp), inside,
      unescape_body written, List.nil_append]
  rw [fixString, if_neg (by simp)]
  simp only [read]

/-! ## The escapes of a format -/

namespace ToString

theorem stringItem_cons (c : UInt16) (sb rest : JavaString) :
    stringItem sb false (c :: rest) =
      if c = openBrace then .ok (sb, some rest)
      else if c = backslash then stringItem sb true rest
      else stringItem (sb ++ [c]) false rest :=
  rfl

theorem stringItem_escaped {c k : UInt16} (is : formatEscape k = some c)
    (sb rest : JavaString) :
    stringItem sb false (backslash :: k :: rest) =
      stringItem (sb ++ [c]) false rest := by
  have brace : backslash ≠ openBrace := by decide
  rw [stringItem_cons, if_neg brace, if_pos rfl, stringItem,
    if_neg (by simp), is]

/-- A character is read as it was. -/
theorem stringItem_escapeChar (c : UInt16) (sb rest : JavaString) :
    stringItem sb false (escapeChar c ++ rest) =
      stringItem (sb ++ [c]) false rest := by
  unfold escapeChar
  split_ifs with tab carriage feed brace back
  · subst tab
    exact stringItem_escaped rfl sb rest
  · subst carriage
    exact stringItem_escaped rfl sb rest
  · subst feed
    exact stringItem_escaped rfl sb rest
  · subst brace
    exact stringItem_escaped rfl sb rest
  · subst back
    exact stringItem_escaped rfl sb rest
  · rw [List.singleton_append, stringItem_cons, if_neg brace, if_neg back]

theorem stringItem_value (value sb rest : JavaString) :
    stringItem sb false (value.flatMap escapeChar ++ rest) =
      stringItem (sb ++ value) false rest := by
  induction value generalizing sb with
  | nil => rw [List.flatMap_nil, List.nil_append, List.append_nil]
  | cons c value ih =>
      rw [List.flatMap_cons, List.append_assoc, stringItem_escapeChar, ih,
        List.append_assoc, List.singleton_append]

theorem fieldItem_value {value : JavaString} (free : closeBrace ∉ value)
    (sb rest : JavaString) :
    fieldItem sb (value ++ closeBrace :: rest) = .ok (sb ++ value, rest) := by
  induction value generalizing sb with
  | nil => rw [List.nil_append, fieldItem, if_pos rfl, List.append_nil]
  | cons c value ih =>
      obtain ⟨other, free⟩ := not_or.mp (mt List.mem_cons.mpr free)
      rw [List.cons_append, fieldItem, if_neg (Ne.symm other), ih free,
        List.append_assoc, List.singleton_append]

theorem parseItems_end {s string : JavaString}
    (first : stringItem [] false s = .ok (string, none))
    (list : List FmtItem) :
    parseItems list s = .ok (addString list string) := by
  rw [parseItems]
  split
  · next fault fails =>
      rw [first] at fails
      cases fails
  · next other reads =>
      rw [first] at reads
      cases reads
      rfl
  · next other rest reads =>
      rw [first] at reads
      cases reads

theorem parseItems_field {s string rest field rest' : JavaString}
    (first : stringItem [] false s = .ok (string, some rest))
    (second : fieldItem [] rest = .ok (field, rest'))
    (list : List FmtItem) :
    parseItems list s =
      parseItems (addField (addString list string) field) rest' := by
  rw [parseItems]
  split
  · next fault fails =>
      rw [first] at fails
      cases fails
  · next other reads =>
      rw [first] at reads
      cases reads
  · next other next reads =>
      rw [first] at reads
      cases reads
      split
      · next fault fails =>
          rw [second] at fails
          cases fails
      · next other next reads =>
          rw [second] at reads
          cases reads
          rfl

theorem addString_of_ne {value : JavaString} (nonempty : value ≠ [])
    (list : List FmtItem) :
    addString list value = list ++ [.string value] :=
  if_pos (List.length_pos_iff.mpr nonempty)

theorem addField_of_ne {value : JavaString} (nonempty : value ≠ [])
    (list : List FmtItem) :
    addField list value = list ++ [.field value] :=
  if_pos (List.length_pos_iff.mpr nonempty)

theorem WellFormed.tail {item : FmtItem} {items : List FmtItem}
    (formed : WellFormed (item :: items)) : WellFormed items where
  strings value member := formed.strings value (List.mem_cons_of_mem _ member)
  fields value member := formed.fields value (List.mem_cons_of_mem _ member)
  apart := formed.apart.tail

/-- The items of a format are found again. -/
theorem parseItems_write : ∀ {items : List FmtItem} (list : List FmtItem),
    WellFormed items → parseItems list (write items) = .ok (list ++ items)
  | [], list, _ => by
      rw [write, List.append_nil]
      exact @parseItems_end [] [] rfl list
  | [.string value], list, formed => by
      have nonempty := formed.strings value List.mem_cons_self
      have read : stringItem [] false (write [.string value]) =
          .ok (value, none) :=
        stringItem_value value [] []
      rw [parseItems_end read, addString_of_ne nonempty]
  | .field value :: rest, list, formed => by
      obtain ⟨nonempty, free⟩ := formed.fields value List.mem_cons_self
      rw [write, parseItems_field rfl (fieldItem_value free [] (write rest)),
        List.nil_append, addField_of_ne nonempty,
        parseItems_write _ formed.tail]
      exact congrArg Except.ok (List.append_assoc ..)
  | .string value :: .field name :: rest, list, formed => by
      have nonempty := formed.strings value List.mem_cons_self
      obtain ⟨named, free⟩ := formed.tail.fields name List.mem_cons_self
      have read : stringItem [] false
          (write (.string value :: .field name :: rest)) =
          .ok (value, some (name ++ closeBrace :: write rest)) :=
        stringItem_value value [] _
      rw [parseItems_field read (fieldItem_value free [] (write rest)),
        List.nil_append, addString_of_ne nonempty, addField_of_ne named,
        parseItems_write _ formed.tail.tail]
      simp
  | .string value :: .string other :: rest, list, formed => by
      have apart := (List.isChain_cons_cons.mp formed.apart).1
      exact absurd rfl (apart value other rfl)

/-! ## Quotation marks at the ends -/

variable {items rest : List FmtItem} {value : JavaString}

theorem head?_escapeChar {c : UInt16}
    (quote : (escapeChar c).head? = some quotationMark) :
    c = quotationMark := by
  unfold escapeChar at quote
  split_ifs at quote <;>
    first | exact Option.some.inj quote | exact absurd quote (by decide)

theorem getLast?_escapeChar {c : UInt16}
    (quote : (escapeChar c).getLast? = some quotationMark) :
    c = quotationMark := by
  unfold escapeChar at quote
  split_ifs at quote <;>
    first | exact Option.some.inj quote | exact absurd quote (by decide)

theorem escapeChar_ne_nil (c : UInt16) : escapeChar c ≠ [] := by
  unfold escapeChar
  split_ifs <;> exact List.cons_ne_nil _ _

theorem write_append (items rest : List FmtItem) :
    write (items ++ rest) = write items ++ write rest := by
  induction items with
  | nil => rfl
  | cons item items ih =>
      cases item <;> simp [write, ih]

/-- A string may be replaced by another one. -/
theorem WellFormed.replace {before : List FmtItem} {other : JavaString}
    (formed : WellFormed (before ++ .string value :: rest))
    (nonempty : other ≠ []) :
    WellFormed (before ++ .string other :: rest) := by
  obtain ⟨first, second, link⟩ := List.isChain_append.mp formed.apart
  obtain ⟨next, rest'⟩ := List.isChain_cons.mp second
  constructor
  · intro text member
    rcases List.mem_append.mp member with early | late
    · exact formed.strings text (List.mem_append_left _ early)
    · rcases List.mem_cons.mp late with same | late
      · cases same
        exact nonempty
      · exact formed.strings text
          (List.mem_append_right _ (List.mem_cons_of_mem _ late))
  · intro text member
    rcases List.mem_append.mp member with early | late
    · exact formed.fields text (List.mem_append_left _ early)
    · rcases List.mem_cons.mp late with same | late
      · cases same
      · exact formed.fields text
          (List.mem_append_right _ (List.mem_cons_of_mem _ late))
  · refine List.isChain_append.mpr ⟨first, List.isChain_cons.mpr ⟨?_, rest'⟩,
      ?_⟩
    · exact fun item is text text' _ => next item is value text' rfl
    · intro item is _ _ text text' same
      exact absurd rfl (link item is (.string value) rfl text value same)

theorem WellFormed.left {before : List FmtItem}
    (formed : WellFormed (before ++ rest)) : WellFormed before where
  strings value member :=
    formed.strings value (List.mem_append_left _ member)
  fields value member :=
    formed.fields value (List.mem_append_left _ member)
  apart := (List.isChain_append.mp formed.apart).1

/-- The first item is a string that begins with a quotation mark. -/
def StartsQuoted (items : List FmtItem) : Prop :=
  ∃ value rest, items = .string (quotationMark :: value) :: rest

/-- The last item is a string that ends with a quotation mark. -/
def EndsQuoted (items : List FmtItem) : Prop :=
  ∃ before value, items = before ++ [.string (value ++ [quotationMark])]

theorem head?_write_iff (formed : WellFormed items) :
    (write items).head? = some quotationMark ↔ StartsQuoted items := by
  constructor
  · intro quote
    match items with
    | [] => cases quote
    | .field value :: rest => exact absurd quote (by
        rw [write, List.head?_cons]
        decide)
    | .string [] :: rest =>
        exact absurd rfl (formed.strings [] List.mem_cons_self)
    | .string (c :: value) :: rest =>
        have first : (escapeChar c).head? = some quotationMark := by
          obtain ⟨d, ds, is⟩ :=
            List.exists_cons_of_ne_nil (escapeChar_ne_nil c)
          rw [write, List.flatMap_cons, is] at quote
          rw [is]
          exact quote
        obtain rfl := head?_escapeChar first
        exact ⟨value, rest, rfl⟩
  · rintro ⟨value, rest, rfl⟩
    rfl

theorem write_endsQuoted (before : List FmtItem) (value : JavaString) :
    write (before ++ [.string (value ++ [quotationMark])]) =
      write before ++ value.flatMap escapeChar ++ [quotationMark] := by
  rw [write_append, write, write, List.append_nil, List.flatMap_append,
    List.flatMap_singleton, ← List.append_assoc]
  rfl

theorem getLast?_write_iff (formed : WellFormed items) :
    (write items).getLast? = some quotationMark ↔ EndsQuoted items := by
  constructor
  · intro quote
    rcases List.eq_nil_or_concat' items with rfl | ⟨before, last, rfl⟩
    · cases quote
    rw [write_append] at quote
    cases last with
    | field value =>
        exact absurd quote (by
          rw [write, write, ← List.cons_append, ← List.append_assoc,
            List.getLast?_append_of_ne_nil _ (by simp)]
          decide)
    | string value =>
        have nonempty := formed.strings value (by simp)
        rcases List.eq_nil_or_concat' value with rfl | ⟨value, c, rfl⟩
        · exact absurd rfl nonempty
        rw [write, write, List.append_nil, List.flatMap_append,
          List.flatMap_singleton, ← List.append_assoc,
          List.getLast?_append_of_ne_nil _ (escapeChar_ne_nil c)] at quote
        obtain rfl := getLast?_escapeChar quote
        exact ⟨before, value, rfl⟩
  · rintro ⟨before, value, rfl⟩
    rw [write_endsQuoted, List.getLast?_concat]

/-- Without its first quotation mark, a format is one of other items. -/
theorem exists_drop (formed : WellFormed items)
    (quoted : StartsQuoted items) :
    ∃ items', WellFormed items' ∧ write items' = (write items).drop 1 := by
  obtain ⟨value, rest, rfl⟩ := quoted
  by_cases empty : value = []
  · subst empty
    exact ⟨rest, formed.tail, rfl⟩
  · exact ⟨.string value :: rest,
      @WellFormed.replace rest _ [] value formed empty, rfl⟩

theorem exists_dropLast (formed : WellFormed items)
    (quoted : EndsQuoted items) :
    ∃ items', WellFormed items' ∧ write items' = (write items).dropLast := by
  obtain ⟨before, value, rfl⟩ := quoted
  rw [write_endsQuoted, List.dropLast_concat]
  by_cases empty : value = []
  · subst empty
    exact ⟨before, formed.left, by rw [List.flatMap_nil, List.append_nil]⟩
  · refine ⟨before ++ [.string value], formed.replace empty, ?_⟩
    rw [write_append, write, write, List.append_nil]

/-- What is parsed is the items again if no quotation mark is dropped. -/
theorem parse_write_iff (formed : WellFormed items) :
    parse (write items) = .ok items ↔
      ¬ StartsQuoted items ∧ ¬ EndsQuoted items := by
  -- what is parsed is a format that is shorter if a mark has been dropped
  have shorter {items' : List FmtItem} (formed' : WellFormed items')
      (less : (write items').length < (write items).length) :
      parseItems [] (write items') ≠ .ok items := by
    rw [parseItems_write [] formed', List.nil_append]
    intro same
    rw [Except.ok.inj same] at less
    exact Nat.lt_irrefl _ less
  rw [← head?_write_iff formed, ← getLast?_write_iff formed]
  by_cases start : (write items).head? = some quotationMark
  · refine iff_of_false ?_ fun both => both.1 start
    have some := List.length_pos_iff.mpr
      (List.ne_nil_of_mem (List.mem_of_mem_head? start))
    obtain ⟨items', formed', same⟩ :=
      exists_drop formed ((head?_write_iff formed).mp start)
    have length : (write items').length = (write items).length - 1 := by
      rw [same, List.length_drop]
    rw [parse, strip, if_pos start, ← same]
    split_ifs with stop
    · obtain ⟨items'', formed'', same'⟩ :=
        exists_dropLast formed' ((getLast?_write_iff formed').mp stop)
      rw [← same']
      refine shorter formed'' ?_
      rw [same', List.length_dropLast]
      omega
    · exact shorter formed' (by omega)
  · rw [parse, strip, if_neg start]
    split_ifs with stop
    · refine iff_of_false ?_ fun both => both.2 stop
      have some := List.length_pos_iff.mpr
        (List.ne_nil_of_mem (List.mem_of_getLast? stop))
      obtain ⟨items', formed', same⟩ :=
        exists_dropLast formed ((getLast?_write_iff formed).mp stop)
      rw [← same]
      refine shorter formed' ?_
      rw [same, List.length_dropLast]
      omega
    · exact iff_of_true (parseItems_write [] formed) ⟨start, stop⟩

/-- What the compiler makes of a format that is written in a string of the
language: the lexer reads the string, and the option parses the format. -/
def read (image : JavaString) (beginLine : ℕ) :
    Except StringFault (List FmtItem) := do
  let arg ← fixString ⟨.str, image, beginLine⟩
  new beginLine [arg]

/-- The items of a format are read again if and only if no quotation mark is
at its start or at its end. -/
theorem read_literal_iff {image : JavaString} (formed : WellFormed items)
    (literal : Literal (write items) image) (beginLine : ℕ) :
    read image beginLine = .ok items ↔
      ¬ StartsQuoted items ∧ ¬ EndsQuoted items := by
  rw [← parse_write_iff formed, read, fixString_literal literal]
  change new beginLine [⟨.str, write items, beginLine⟩] = _ ↔ _
  rw [new, if_neg (by simp)]
  cases parse (write items) with
  | ok format => rfl
  | error fault => cases fault <;> exact iff_of_false nofun nofun

/-- A string, and a field behind it. -/
theorem read_id :
    read (quoted (write [.string (text "id="), .field (text "id")])) 1 =
      .ok [.string (text "id="), .field (text "id")] := by
  refine (read_literal_iff ⟨?_, ?_, ?_⟩ (literal_quoted _) 1).mpr ⟨?_, ?_⟩
  · rintro value member rfl
    exact absurd member (by decide)
  · intro value member
    obtain rfl : value = text "id" := by simpa using member
    exact ⟨by decide, by decide⟩
  · exact List.isChain_cons_cons.mpr ⟨fun _ _ _ => nofun, .singleton _⟩
  · rintro ⟨value, rest, same⟩
    have head : (text "id=").head? = some quotationMark :=
      congrArg List.head? (FmtItem.string.inj (List.cons.inj same).1)
    exact absurd head (by decide)
  · rintro ⟨before, value, same⟩
    have last := congrArg List.getLast? same
    rw [List.getLast?_concat] at last
    cases last

/-- A single quotation mark is lost. -/
theorem read_mark :
    WellFormed [.string [quotationMark]] ∧
      read (quoted (write [.string [quotationMark]])) 1 = .ok [] := by
  refine ⟨⟨?_, ?_, .singleton _⟩, ?_⟩
  · rintro value member rfl
    exact absurd member (by decide)
  · intro value member
    cases List.mem_singleton.mp member
  · have parsed : parse (write [.string [quotationMark]]) = .ok [] :=
      @parseItems_end [] [] rfl []
    rw [read, fixString_literal (literal_quoted _)]
    change new 1 [⟨.str, write [.string [quotationMark]], 1⟩] = _
    rw [new, if_neg (by simp)]
    simp only [parsed]

end ToString

end Etch.Compiler
