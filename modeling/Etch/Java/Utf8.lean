import Etch.Java.IdName

/-!
# The string encoding of the Java `DefaultValueFactory`

`getStringEncoding()` is `utf-8`.  A string has an encoding where its
surrogates are in pairs, and comes back from it.  Java leaves it open what
becomes of other strings, and of bytes that are no encoding.
-/

namespace Etch.Java

namespace Utf8

/-- A high surrogate, and a low one. -/
def isHigh (c : UInt16) : Bool :=
  0xD800 ≤ c.toNat && c.toNat < 0xDC00

def isLow (c : UInt16) : Bool :=
  0xDC00 ≤ c.toNat && c.toNat < 0xE000

/-- The character of a pair of surrogates. -/
def pairChar (high low : UInt16) : Char :=
  Char.ofNat
    (0x10000 + (high.toNat - 0xD800) * 0x400 + (low.toNat - 0xDC00))

/-- The characters of a string, where its surrogates are in pairs. -/
def toChars? : JavaString → Option (List Char)
  | [] => some []
  | [c] =>
      if isHigh c || isLow c then none else some [Char.ofNat c.toNat]
  | c :: d :: s =>
      if isHigh c then
        if isLow d then (toChars? s).map (pairChar c d :: ·) else none
      else if isLow c then
        none
      else
        (toChars? (d :: s)).map (Char.ofNat c.toNat :: ·)

/-- The string of a character. -/
def ofChar (c : Char) : JavaString :=
  if c.toNat < 0x10000 then
    [c.toNat.toUInt16]
  else
    [(0xD800 + (c.toNat - 0x10000) / 0x400).toUInt16,
      (0xDC00 + (c.toNat - 0x10000) % 0x400).toUInt16]

def ofChars (chars : List Char) : JavaString :=
  chars.flatMap ofChar

/-- Surrogates are in pairs. -/
def WellFormed (s : JavaString) : Prop :=
  (toChars? s).isSome

instance (s : JavaString) : Decidable (WellFormed s) :=
  inferInstanceAs (Decidable (_ = true))

theorem toNat_ofNat {n : Nat} (valid : n < 0xD800 ∨ 0xE000 ≤ n)
    (small : n < 0x110000) : (Char.ofNat n).toNat = n := by
  have isValid : n.isValidChar := by
    rcases valid with below | above
    · exact Or.inl below
    · exact Or.inr ⟨by omega, small⟩
  rw [Char.ofNat, dif_pos isValid]
  rfl

theorem ofChar_single {c : UInt16} (notHigh : isHigh c = false)
    (notLow : isLow c = false) : ofChar (Char.ofNat c.toNat) = [c] := by
  have small := c.toNat_lt
  simp only [isHigh, isLow, Bool.and_eq_false_imp, decide_eq_true_eq,
    decide_eq_false_iff_not] at notHigh notLow
  have same := toNat_ofNat (n := c.toNat) (by omega) (by omega)
  rw [ofChar, same, if_pos small]
  exact congrArg (fun d => [d]) UInt16.ofNat_toNat

theorem ofChar_pair {high low : UInt16} (isHigh : isHigh high = true)
    (isLow : isLow low = true) :
    ofChar (pairChar high low) = [high, low] := by
  simp only [Utf8.isHigh, Utf8.isLow, Bool.and_eq_true, decide_eq_true_eq]
    at isHigh isLow
  have same := toNat_ofNat (n := 0x10000 + (high.toNat - 0xD800) * 0x400 +
    (low.toNat - 0xDC00)) (by omega) (by omega)
  rw [pairChar, ofChar, same, if_neg (by omega)]
  have first : 0xD800 + (0x10000 + (high.toNat - 0xD800) * 0x400 +
      (low.toNat - 0xDC00) - 0x10000) / 0x400 = high.toNat := by omega
  have second : 0xDC00 + (0x10000 + (high.toNat - 0xD800) * 0x400 +
      (low.toNat - 0xDC00) - 0x10000) % 0x400 = low.toNat := by omega
  rw [first, second]
  exact congrArg₂ (fun c d => [c, d]) UInt16.ofNat_toNat UInt16.ofNat_toNat

theorem ofChars_toChars? (s : JavaString) (chars : List Char)
    (is : toChars? s = some chars) : ofChars chars = s := by
  induction s using toChars?.induct generalizing chars with
  | case1 =>
      obtain rfl := Option.some.inj is
      rfl
  | case2 c surrogate =>
      rw [toChars?, if_pos surrogate] at is
      exact nomatch is
  | case3 c plain =>
      rw [toChars?, if_neg plain] at is
      obtain rfl := Option.some.inj is
      rw [Bool.or_eq_true, not_or, Bool.not_eq_true, Bool.not_eq_true]
        at plain
      exact (List.append_nil _).trans (ofChar_single plain.1 plain.2)
  | case4 c d s high low ih =>
      rw [toChars?, if_pos high, if_pos low] at is
      obtain ⟨rest, found, rfl⟩ := Option.map_eq_some_iff.mp is
      rw [ofChars, List.flatMap_cons, ofChar_pair high low, ← ofChars,
        ih rest found]
      rfl
  | case5 c d s high low =>
      rw [toChars?, if_pos high, if_neg low] at is
      exact nomatch is
  | case6 c d s high low =>
      rw [toChars?, if_neg high, if_pos low] at is
      exact nomatch is
  | case7 c d s high low ih =>
      rw [toChars?, if_neg high, if_neg low] at is
      obtain ⟨rest, found, rfl⟩ := Option.map_eq_some_iff.mp is
      rw [ofChars, List.flatMap_cons, ofChar_single
        (Bool.eq_false_of_not_eq_true high)
        (Bool.eq_false_of_not_eq_true low), ← ofChars, ih rest found]
      rfl

end Utf8

/-- The encoding, with what becomes of other strings and other bytes. -/
structure Charset where
  unmappable : JavaString → List UInt8
  malformed : List UInt8 → JavaString

namespace Charset

variable (charset : Charset)

/-- `s.getBytes("utf-8")` -/
def getBytes (s : JavaString) : List UInt8 :=
  match Utf8.toChars? s with
  | some chars => chars.flatMap String.utf8EncodeChar
  | none => charset.unmappable s

/-- `new String(bytes, "utf-8")` -/
def newString (bytes : List UInt8) : JavaString :=
  match bytes.toByteArray.utf8Decode? with
  | some chars => Utf8.ofChars chars.toList
  | none => charset.malformed bytes

theorem newString_getBytes {s : JavaString} (wellFormed : Utf8.WellFormed s) :
    charset.newString (charset.getBytes s) = s := by
  obtain ⟨chars, is⟩ := Option.isSome_iff_exists.mp wellFormed
  have decoded : (chars.flatMap String.utf8EncodeChar).toByteArray.utf8Decode? =
      some chars.toArray := List.utf8Decode?_utf8Encode
  rw [getBytes, is]
  dsimp only
  rw [newString, decoded]
  exact Utf8.ofChars_toChars? s chars is

end Charset

end Etch.Java
