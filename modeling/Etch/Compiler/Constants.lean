import Etch.Compiler.Service
import Etch.Java.Url
import Mathlib.Data.Nat.Digits.Defs

/-!
# Constants of the Etch compiler

A constant has a type that is a keyword and a value that is one token.  An
integer is written in one of four ways; whether it fits its type is found out
with a signed integer of 64 bits.
-/

namespace Etch.Compiler

open Etch.Java

/-! ## Tokens -/

/-- The kinds of tokens that stand for types and for values. -/
inductive TokenKind where
  | boolean | byte | short | int | long | float | double | string | object
  | void | id | qid | null | isTrue | isFalse | integer | octal | hex
  | binary | decimal | str
deriving DecidableEq

structure Token where
  kind : TokenKind
  image : JavaString
  beginLine : Nat
deriving DecidableEq

/-! ## Numbers -/

/-- What a digit is worth, in a radix up to 36. -/
def asciiDigit (radix : ℕ) (c : UInt16) : Option ℕ :=
  let worth :=
    if char '0' ≤ c ∧ c ≤ char '9' then c.toNat - '0'.toNat
    else if char 'a' ≤ c ∧ c ≤ char 'z' then c.toNat - 'a'.toNat + 10
    else if char 'A' ≤ c ∧ c ≤ char 'Z' then c.toNat - 'A'.toNat + 10
    else 36
  if worth < radix then some worth else none

/-- `Character.digit( c, radix )`, which depends on the version of Unicode
for the characters that are not ASCII. -/
structure RadixDigits where
  digit : ℕ → UInt16 → Option ℕ
  ascii : ∀ radix c, radix ≤ 36 → c < 128 →
    digit radix c = asciiDigit radix c

/-- The digits that are ASCII, and no others. -/
def asciiRadixDigits : RadixDigits where
  digit := asciiDigit
  ascii _ _ _ _ := rfl

namespace RadixDigits

variable (digits : RadixDigits)

/-- The number that one or more digits stand for. -/
def number (radix : ℕ) (s : JavaString) : Option ℕ :=
  if s = [] then none
  else s.foldlM
    (fun sum c => (digits.digit radix c).map (radix * sum + ·)) 0

/-- `Long.parseLong( s, radix )`; a `NumberFormatException` is none. -/
def parseLong (s : JavaString) (radix : ℕ) : Option ℤ :=
  match s with
  | [] => none
  | sign :: rest =>
      if sign = char '-' then
        match digits.number radix rest with
        | some n => if n ≤ 2 ^ 63 then some (-n) else none
        | none => none
      else
        match digits.number radix
          (if sign = char '+' then rest else s) with
        | some n => if n < 2 ^ 63 then some n else none
        | none => none

end RadixDigits

/-- `s.toLowerCase()`, of the characters that are ASCII. -/
def toLowerCase (s : JavaString) : JavaString :=
  s.map fun c => if char 'A' ≤ c ∧ c ≤ char 'Z' then c + 32 else c

/-! ## The check of a constant -/

structure Constant where
  type : Token
  value : Token

namespace Constant

variable (digits : RadixDigits)

def checkNumber (s : JavaString) (radix : ℕ) (min max : ℤ) : Bool :=
  match digits.parseLong s radix with
  | some l => l ≥ min && l ≤ max
  | none => false

def checkByte (s : JavaString) (radix : ℕ) : Bool :=
  if radix = 10 then checkNumber digits s radix (-128) 127
  else checkNumber digits s radix 0 255

def checkShort (s : JavaString) (radix : ℕ) : Bool :=
  if radix = 10 then checkNumber digits s radix (-32768) 32767
  else checkNumber digits s radix 0 65535

def checkInt (s : JavaString) (radix : ℕ) : Bool :=
  if radix = 10 then checkNumber digits s radix (-2147483648) 2147483647
  else checkNumber digits s radix 0 4294967295

def checkLong (s : JavaString) (radix : ℕ) : Bool :=
  if radix = 10 then
    checkNumber digits s radix (-9223372036854775808) 9223372036854775807
  else checkNumber digits s radix 0 (-1)

def isBoolean (v : Token) : Bool :=
  v.kind = .isTrue || v.kind = .isFalse

/-- The four ways to write an integer, with the check of its type. -/
def isIntegral (check : JavaString → ℕ → Bool) (v : Token) : Bool :=
  match v.kind with
  | .integer => check v.image 10
  | .octal => (text "0").isPrefixOf v.image && check (v.image.drop 1) 8
  | .hex =>
      (text "0x").isPrefixOf (toLowerCase v.image) && check (v.image.drop 2) 16
  | .binary =>
      (text "0b").isPrefixOf (toLowerCase v.image) && check (v.image.drop 2) 2
  | _ => false

def isByte (v : Token) : Bool := isIntegral (checkByte digits) v
def isShort (v : Token) : Bool := isIntegral (checkShort digits) v
def isInt (v : Token) : Bool := isIntegral (checkInt digits) v
def isLong (v : Token) : Bool := isIntegral (checkLong digits) v

/-- Any number is a `float`. -/
def isFloat (v : Token) : Bool :=
  v.kind ∈ [.integer, .octal, .hex, .binary, .decimal]

/-- Any number is a `double`. -/
def isDouble (v : Token) : Bool :=
  v.kind ∈ [.integer, .octal, .hex, .binary, .decimal]

def isString (v : Token) : Bool :=
  v.kind = .str

def incompatValueForType (type value : Token) : Thrown :=
  .parseException (text "incompatible value for type " ++ type.image ++
    text " at line " ++ text (toString value.beginLine) ++ text ": " ++
    value.image)

/-- `check()`; that of the name is only a warning. -/
def check (constant : Constant) : Except Thrown Unit :=
  let expect (compatible : Bool) : Except Thrown Unit :=
    if compatible then .ok ()
    else .error (incompatValueForType constant.type constant.value)
  match constant.type.kind with
  | .boolean => expect (isBoolean constant.value)
  | .byte => expect (isByte digits constant.value)
  | .short => expect (isShort digits constant.value)
  | .int => expect (isInt digits constant.value)
  | .long => expect (isLong digits constant.value)
  | .float => expect (isFloat constant.value)
  | .double => expect (isDouble constant.value)
  | .string => expect (isString constant.value)
  | _ =>
      .error (.parseException (text "unknown type " ++ constant.type.image))

end Constant

/-! ## Literals -/

/-- What is written with the digits of a radix. -/
def DigitsOf (radix : ℕ) (s : JavaString) : Prop :=
  s ≠ [] ∧ ∀ c ∈ s, c < 128 ∧ (asciiDigit radix c).isSome = true

/-- The tokens `INTEGER`, `OCTAL`, `HEX` and `BINARY`. -/
inductive Lexed : TokenKind → JavaString → Prop where
  | integer {sign body : JavaString} (signed : sign = [] ∨ sign = text "-")
      (digits : DigitsOf 10 body)
      (leading : body = text "0" ∨ body.head? ≠ some (char '0')) :
      Lexed .integer (sign ++ body)
  | octal {body : JavaString} (digits : DigitsOf 8 body) :
      Lexed .octal (text "0" ++ body)
  | hex {body : JavaString} {x : UInt16} (letter : x = char 'x' ∨ x = char 'X')
      (digits : DigitsOf 16 body) : Lexed .hex (text "0" ++ x :: body)
  | binary {body : JavaString} {b : UInt16}
      (letter : b = char 'b' ∨ b = char 'B') (digits : DigitsOf 2 body) :
      Lexed .binary (text "0" ++ b :: body)

/-- The number that digits of a radix stand for, the first one being worth
most. -/
def valueOf (radix : ℕ) (s : JavaString) : ℕ :=
  Nat.ofDigits radix (s.reverse.map fun c => (asciiDigit radix c).getD 0)

/-- The number that a literal stands for. -/
def literalValue (token : Token) : ℤ :=
  match token.kind with
  | .integer =>
      if token.image.head? = some (char '-') then
        -(valueOf 10 (token.image.drop 1) : ℤ)
      else valueOf 10 token.image
  | .octal => valueOf 8 (token.image.drop 1)
  | .hex => valueOf 16 (token.image.drop 2)
  | .binary => valueOf 2 (token.image.drop 2)
  | _ => 0

/-- The number of bits of an integral type. -/
def TokenKind.bits : TokenKind → Option ℕ
  | .byte => some 8
  | .short => some 16
  | .int => some 32
  | .long => some 64
  | _ => none

/-- A literal is in the range of an integral type: of a signed one if it is
decimal, else of an unsigned one. -/
def Fits (bits : ℕ) (token : Token) : Prop :=
  if token.kind = .integer then
    -2 ^ (bits - 1) ≤ literalValue token ∧
      literalValue token ≤ 2 ^ (bits - 1) - 1
  else
    0 ≤ literalValue token ∧ literalValue token ≤ 2 ^ bits - 1

/-! ## Literals are parsed -/

theorem valueOf_cons (radix : ℕ) (c : UInt16) (s : JavaString) :
    valueOf radix (c :: s) =
      (asciiDigit radix c).getD 0 * radix ^ s.length + valueOf radix s := by
  rw [valueOf, List.reverse_cons, List.map_append, Nat.ofDigits_append,
    List.length_map, List.length_reverse, List.map_singleton,
    Nat.ofDigits_singleton, valueOf]
  ring

/-- A digit is none of the signs. -/
theorem not_sign_of_digit {radix : ℕ} {c : UInt16} (small : radix ≤ 36)
    (digit : (asciiDigit radix c).isSome = true) :
    c ≠ char '-' ∧ c ≠ char '+' := by
  constructor
  · rintro rfl
    have none : ¬ 36 < radix := by omega
    simp [asciiDigit, char, none] at digit
  · rintro rfl
    have none : ¬ 36 < radix := by omega
    simp [asciiDigit, char, none] at digit

variable {digits : RadixDigits} {radix : ℕ} {s : JavaString}

theorem foldlM_digits (small : radix ≤ 36)
    (each : ∀ c ∈ s, c < 128 ∧ (asciiDigit radix c).isSome = true)
    (sum : ℕ) :
    s.foldlM (fun sum c => (digits.digit radix c).map (radix * sum + ·))
        sum =
      some (sum * radix ^ s.length + valueOf radix s) := by
  induction s generalizing sum with
  | nil => simp [valueOf, Nat.ofDigits_nil]
  | cons c s ih =>
      obtain ⟨ascii, digit⟩ := each c List.mem_cons_self
      obtain ⟨worth, found⟩ := Option.isSome_iff_exists.mp digit
      have rest := ih
        (fun other member => each other (List.mem_cons_of_mem _ member))
        (radix * sum + worth)
      rw [List.foldlM_cons, digits.ascii radix c small ascii, found]
      change List.foldlM _ (radix * sum + worth) s = _
      rw [rest, valueOf_cons, found, List.length_cons]
      congr 1
      simp only [Option.getD_some]
      ring

theorem number_eq (small : radix ≤ 36) (written : DigitsOf radix s) :
    digits.number radix s = some (valueOf radix s) := by
  rw [RadixDigits.number, if_neg written.1, foldlM_digits small written.2]
  simp

theorem parseLong_digits (small : radix ≤ 36) (written : DigitsOf radix s) :
    digits.parseLong s radix =
      if (valueOf radix s : ℤ) < 2 ^ 63 then some (valueOf radix s : ℤ)
      else none := by
  obtain ⟨c, rest, rfl⟩ := List.exists_cons_of_ne_nil written.1
  obtain ⟨minus, plus⟩ :=
    not_sign_of_digit small (written.2 c List.mem_cons_self).2
  rw [RadixDigits.parseLong, if_neg minus, if_neg plus,
    number_eq small written]
  dsimp only
  split_ifs with fits large large
  · rfl
  · omega
  · omega
  · rfl

theorem parseLong_minus (small : radix ≤ 36) (written : DigitsOf radix s) :
    digits.parseLong (char '-' :: s) radix =
      if (-2 ^ 63 : ℤ) ≤ -(valueOf radix s : ℤ) then
        some (-(valueOf radix s : ℤ))
      else none := by
  rw [RadixDigits.parseLong, if_pos rfl, number_eq small written]
  dsimp only
  split_ifs with fits large large
  · rfl
  · omega
  · omega
  · rfl

theorem parseLong_nonnegative (small : radix ≤ 36)
    (written : DigitsOf radix s) :
    digits.parseLong s radix =
      if -2 ^ 63 ≤ (valueOf radix s : ℤ) ∧ (valueOf radix s : ℤ) < 2 ^ 63 then
        some (valueOf radix s : ℤ)
      else none := by
  have lower : -2 ^ 63 ≤ (valueOf radix s : ℤ) := by omega
  rw [parseLong_digits small written]
  simp only [lower, true_and]

/-- The string of digits that a check is given, with its radix: it stands for
the value of the literal, and is parsed if that is a `long`. -/
theorem Lexed.parsed {token : Token}
    (lexed : Lexed token.kind token.image) (digits : RadixDigits) :
    ∃ s radix, (radix = 10 ↔ token.kind = .integer) ∧
      (token.kind ≠ .integer → 0 ≤ literalValue token) ∧
      (∀ check, Constant.isIntegral check token = check s radix) ∧
      digits.parseLong s radix =
        if -2 ^ 63 ≤ literalValue token ∧ literalValue token < 2 ^ 63 then
          some (literalValue token)
        else none := by
  obtain ⟨kind, image, line⟩ := token
  change Lexed kind image at lexed
  cases lexed with
  | @integer sign body signed written leading =>
      refine ⟨sign ++ body, 10, iff_of_true rfl rfl, absurd rfl,
        fun check => rfl, ?_⟩
      rcases signed with rfl | rfl
      · obtain ⟨c, rest, rfl⟩ := List.exists_cons_of_ne_nil written.1
        have digit := (written.2 c List.mem_cons_self).2
        have value : literalValue ⟨.integer, [] ++ c :: rest, line⟩ =
            valueOf 10 (c :: rest) := by
          refine if_neg fun minus => ?_
          exact (not_sign_of_digit (by decide) digit).1 (Option.some.inj minus)
        rw [value]
        exact parseLong_nonnegative (by decide) written
      · have value : literalValue ⟨.integer, text "-" ++ body, line⟩ =
            -(valueOf 10 body : ℤ) := rfl
        have upper : -(valueOf 10 body : ℤ) < 2 ^ 63 := by omega
        rw [value]
        simp only [upper, and_true]
        exact parseLong_minus (by decide) written
  | @octal body written =>
      exact ⟨body, 8, iff_of_false (by decide) nofun,
        fun _ => Int.natCast_nonneg _, fun check => rfl,
        parseLong_nonnegative (by decide) written⟩
  | @hex body x letter written =>
      refine ⟨body, 16, iff_of_false (by decide) nofun,
        fun _ => Int.natCast_nonneg _, fun check => ?_,
        parseLong_nonnegative (by decide) written⟩
      rcases letter with rfl | rfl <;> rfl
  | @binary body b letter written =>
      refine ⟨body, 2, iff_of_false (by decide) nofun,
        fun _ => Int.natCast_nonneg _, fun check => ?_,
        parseLong_nonnegative (by decide) written⟩
      rcases letter with rfl | rfl <;> rfl

/-! ## Which constants are accepted -/

namespace Constant

theorem checkNumber_eq {value min max : ℤ}
    (parsed : digits.parseLong s radix =
      if -2 ^ 63 ≤ value ∧ value < 2 ^ 63 then some value else none)
    (lower : -2 ^ 63 ≤ min) (upper : max < 2 ^ 63) :
    checkNumber digits s radix min max =
      decide (min ≤ value ∧ value ≤ max) := by
  rw [checkNumber, parsed]
  split_ifs with within
  · simp [Bool.decide_and]
  · exact (decide_eq_false (by omega)).symm

/-- A check of up to 32 bits. -/
theorem checkNumber_fits {token : Token} {bits : ℕ} (few : bits ≤ 32)
    (decimal : radix = 10 ↔ token.kind = .integer)
    (parsed : digits.parseLong s radix =
      if -2 ^ 63 ≤ literalValue token ∧ literalValue token < 2 ^ 63 then
        some (literalValue token)
      else none) :
    (if radix = 10 then
      checkNumber digits s radix (-2 ^ (bits - 1)) (2 ^ (bits - 1) - 1)
    else checkNumber digits s radix 0 (2 ^ bits - 1)) = true ↔
      Fits bits token := by
  have whole : (2 : ℤ) ^ bits ≤ 2 ^ 32 :=
    pow_le_pow_right₀ (by decide) few
  have half : (2 : ℤ) ^ (bits - 1) ≤ 2 ^ 32 :=
    pow_le_pow_right₀ (by decide) (by omega)
  rw [Fits]
  by_cases integer : token.kind = .integer
  · rw [if_pos (decimal.mpr integer), if_pos integer,
      checkNumber_eq parsed (by omega) (by omega), decide_eq_true_iff]
  · rw [if_neg (mt decimal.mp integer), if_neg integer,
      checkNumber_eq parsed (by omega) (by omega), decide_eq_true_iff]

/-- `checkLong` accepts decimal literals only. -/
theorem checkLong_iff {token : Token}
    (decimal : radix = 10 ↔ token.kind = .integer)
    (parsed : digits.parseLong s radix =
      if -2 ^ 63 ≤ literalValue token ∧ literalValue token < 2 ^ 63 then
        some (literalValue token)
      else none) :
    checkLong digits s radix = true ↔
      token.kind = .integer ∧ Fits 64 token := by
  rw [checkLong]
  by_cases integer : token.kind = .integer
  · rw [if_pos (decimal.mpr integer),
      checkNumber_eq parsed (by decide) (by decide), decide_eq_true_iff,
      Fits, if_pos integer]
    simp [integer]
  · rw [if_neg (mt decimal.mp integer),
      checkNumber_eq parsed (by decide) (by decide), decide_eq_true_iff]
    exact iff_of_false (by omega) fun both => integer both.1

/-- The types `byte`, `short`, `int` and `long`. -/
theorem check_ok_iff {constant : Constant} {bits : ℕ}
    (integral : constant.type.kind.bits = some bits)
    (lexed : Lexed constant.value.kind constant.value.image) :
    constant.check digits = .ok () ↔
      Fits bits constant.value ∧
        (constant.type.kind = .long → constant.value.kind = .integer) := by
  obtain ⟨s, radix, decimal, nonnegative, check, parsed⟩ :=
    lexed.parsed digits
  have expect (compatible : Bool) (thrown : Thrown) :
      (if compatible then Except.ok () else .error thrown) = .ok () ↔
        compatible = true := by
    cases compatible <;> simp
  have small (few : bits ≤ 32) := checkNumber_fits few decimal parsed
  obtain ⟨⟨kind, image, line⟩, value⟩ := constant
  cases kind with
  | byte =>
      obtain rfl : 8 = bits := Option.some.inj integral
      rw [Constant.check, expect, isByte, check, checkByte]
      simpa using small (by decide)
  | short =>
      obtain rfl : 16 = bits := Option.some.inj integral
      rw [Constant.check, expect, isShort, check, checkShort]
      simpa using small (by decide)
  | int =>
      obtain rfl : 32 = bits := Option.some.inj integral
      rw [Constant.check, expect, isInt, check, checkInt]
      simpa using small (by decide)
  | long =>
      obtain rfl : 64 = bits := Option.some.inj integral
      rw [Constant.check, expect, isLong, check,
        checkLong_iff decimal parsed]
      simp [and_comm]
  | _ => cases integral

/-- A constant is accepted if and only if it fits, except for a `long` that is
not decimal: none is accepted, although most fit. -/
theorem check_fits_iff {constant : Constant} {bits : ℕ}
    (integral : constant.type.kind.bits = some bits)
    (lexed : Lexed constant.value.kind constant.value.image) :
    (constant.check digits = .ok () ↔ Fits bits constant.value) ↔
      ¬ (constant.type.kind = .long ∧ constant.value.kind ≠ .integer ∧
        literalValue constant.value < 2 ^ 64) := by
  obtain ⟨_, _, _, nonnegative, _, _⟩ := lexed.parsed digits
  rw [check_ok_iff integral lexed]
  by_cases long : constant.type.kind = .long
  · rw [long] at integral
    obtain rfl : 64 = bits := Option.some.inj integral
    by_cases integer : constant.value.kind = .integer
    · simp [integer]
    · have least := nonnegative integer
      rw [Fits, if_neg integer]
      simp only [long, integer, forall_const, and_false, true_and, ne_eq,
        not_false_eq_true, false_iff]
      omega
  · simp [long]

/-- `const int ALL = 0xffffffff` -/
theorem check_fits_all :
    Constant.check asciiRadixDigits
        ⟨⟨.int, text "int", 1⟩, ⟨.hex, text "0xffffffff", 1⟩⟩ = .ok () ↔
      Fits 32 ⟨.hex, text "0xffffffff", 1⟩ :=
  (check_fits_iff rfl (.hex  (.inl rfl)
    ⟨by decide, forall_mem_of_all (by decide)⟩)).mpr (by decide)

/-- `const long ONE = 0x1` is refused. -/
theorem check_long_one :
    Lexed .hex (text "0x1") ∧ Fits 64 ⟨.hex, text "0x1", 1⟩ ∧
      Constant.check asciiRadixDigits
          ⟨⟨.long, text "long", 1⟩, ⟨.hex, text "0x1", 1⟩⟩ =
        .error (.parseException
          (text "incompatible value for type long at line 1: 0x1")) := by
  refine ⟨.hex (.inl rfl) ⟨by decide, forall_mem_of_all (by decide)⟩,
    ⟨by decide, by decide⟩, by decide⟩

end Constant

end Etch.Compiler
