import Etch.Cpp.UrlParts

/-!
# Ports in Java and in C++

`Integer.parseInt` takes the digits of every script, `atoi` stops at the first
character that is no ASCII digit.
-/

namespace Etch.Cpp

open Etch.Java (JavaString Digits char)
open Etch.Library.Splitting

/-! ## The first character -/

namespace SameText

variable {c : UInt16} {a : JavaString} {b : CString}

theorem cons_ascii (same : SameText (c :: a) b) (ascii : c < 128) :
    ∃ rest, b = c.toNat.toUInt8 :: rest ∧ SameText a rest := by
  have small : c.toNat < 128 := ascii
  have value : (Char.ofNat c.toNat).toNat = c.toNat :=
    Java.Utf8.toNat_ofNat (.inl (by omega)) (by omega)
  have unit : char (Char.ofNat c.toNat) = c := by
    rw [char, value]
    exact UInt16.ofNat_toNat
  have ascii' : (Char.ofNat c.toNat).toNat < 128 := by rwa [value]
  rw [← unit] at same
  obtain ⟨rest, rfl⟩ := (same.cons_iff ascii').mp ⟨a, rfl⟩
  refine ⟨rest, ?_, same.tail ascii'⟩
  rw [byte, value]

theorem cons_other (same : SameText (c :: a) b) (other : ¬ c < 128) :
    ∃ first rest, b = first :: rest ∧ ¬ first < 128 := by
  obtain ⟨text, coded, rfl⟩ := same
  cases text with
  | nil => exact nomatch coded
  | cons d text =>
      have large : ¬ d.toNat < 128 := by
        intro ascii
        change c :: a = Java.Utf8.ofChar d ++ Java.Utf8.ofChars text at coded
        rw [ofChar_ascii ascii] at coded
        refine other ?_
        rw [(List.cons.inj coded).1, UInt16.lt_iff_toNat_lt, char,
          Nat.toUInt16, UInt16.toNat_ofNat']
        exact Nat.lt_of_le_of_lt (Nat.mod_le _ _) ascii
      have nonempty : String.utf8EncodeChar d ≠ [] :=
        String.utf8EncodeChar_ne_nil
      obtain ⟨first, rest, bytes⟩ := List.exists_cons_of_ne_nil nonempty
      refine ⟨first, rest ++ utf8 text, ?_, fun ascii => large ?_⟩
      · change String.utf8EncodeChar d ++ utf8 text = _
        rw [bytes]
        rfl
      · have small : first.toNat < 128 := ascii
        have value : (Char.ofNat first.toNat).toNat = first.toNat :=
          Java.Utf8.toNat_ofNat (.inl (by omega)) (by omega)
        have ascii' : (Char.ofNat first.toNat).toNat < 128 := by rwa [value]
        have mem : byte (Char.ofNat first.toNat) ∈
            String.utf8EncodeChar d := by
          rw [byte, value, bytes]
          exact List.mem_cons.mpr (.inl UInt8.ofNat_toNat)
        rw [mem_utf8EncodeChar ascii' mem]
        exact ascii'

end SameText

/-! ## Digits -/

/-- What `unescape` makes of a string that has no escape sequence. -/
def blanked (s : JavaString) : JavaString :=
  s.map fun c => if c = char '+' then char ' ' else c

/-- The number in front of the first byte that is no digit. -/
def prefixValue (b : CString) (sum : ℕ) : ℕ :=
  (b.takeWhile isdigit).foldl
    (fun sum c => 10 * sum + (c.toNat - '0'.toNat)) sum

section

variable (digits : Digits)

/-- The number that the digits stand for, added to others in front. -/
def fullValue (s : JavaString) (sum : ℕ) : Option ℕ :=
  s.foldlM (fun sum c => (digits.digit c).map (10 * sum + ·)) sum

variable {digits}

theorem le_fullValue {s : JavaString} {sum n : ℕ}
    (value : fullValue digits s sum = some n) : sum ≤ n := by
  induction s generalizing sum with
  | nil => exact (Option.some.inj value).le
  | cons c s ih =>
      rw [fullValue, List.foldlM_cons] at value
      cases digit : digits.digit c with
      | none =>
          rw [digit] at value
          exact nomatch value
      | some d =>
          rw [digit] at value
          have rest : 10 * sum + d ≤ n := ih value
          omega

/-- What `atoi` sees of a number is all of it if the digits are ASCII, or if
the number is zero. -/
theorem prefixValue_eq_iff {s : JavaString} {b : CString} {sum n : ℕ}
    (same : SameText s b) (value : fullValue digits s sum = some n) :
    prefixValue b sum ≤ n ∧
      (prefixValue b sum = n ↔ (∀ c ∈ s, c < 128) ∨ n = 0) := by
  induction s generalizing b sum with
  | nil =>
      obtain rfl := same.nil_iff.mp rfl
      obtain rfl := Option.some.inj value
      exact ⟨le_refl sum, iff_of_true rfl (.inl nofun)⟩
  | cons c s ih =>
      rw [fullValue, List.foldlM_cons] at value
      cases digit : digits.digit c with
      | none =>
          rw [digit] at value
          exact nomatch value
      | some d =>
          rw [digit] at value
          have rest : fullValue digits s (10 * sum + d) = some n := value
          by_cases ascii : c < 128
          · obtain ⟨b, rfl, tail⟩ := same.cons_ascii ascii
            have known := digits.ascii c ascii
            rw [digit] at known
            split_ifs at known with range
            obtain rfl := Option.some.inj known
            have small : c.toNat < 128 := ascii
            have unit : c.toNat.toUInt8.toNat = c.toNat := by
              rw [Nat.toUInt8, UInt8.toNat_ofNat']
              exact Nat.mod_eq_of_lt (by omega)
            have isDigit : isdigit c.toNat.toUInt8 = true := by
              obtain ⟨least, most⟩ := range
              have least' : 48 ≤ c.toNat := least
              have most' : c.toNat ≤ 57 := most
              refine decide_eq_true ⟨?_, ?_⟩
              · rw [UInt8.le_iff_toNat_le, unit]
                exact least'
              · rw [UInt8.le_iff_toNat_le, unit]
                exact most'
            have step : prefixValue (c.toNat.toUInt8 :: b) sum =
                prefixValue b (10 * sum + (c.toNat - '0'.toNat)) := by
              rw [prefixValue, List.takeWhile_cons_of_pos isDigit,
                List.foldl_cons, unit]
              rfl
            rw [step, List.forall_mem_cons]
            obtain ⟨least, equal⟩ := ih tail rest
            exact ⟨least, equal.trans (by simp only [ascii, true_and])⟩
          · obtain ⟨first, b, rfl, other⟩ := same.cons_other ascii
            have notDigit : ¬ isdigit first = true := by
              intro isDigit
              have most := (of_decide_eq_true isDigit).2
              exact other (UInt8.lt_of_le_of_lt most (by decide))
            have step : prefixValue (first :: b) sum = sum := by
              rw [prefixValue, List.takeWhile_cons_of_neg notDigit]
              rfl
            rw [step, List.forall_mem_cons]
            have least := le_fullValue rest
            refine ⟨by omega, ?_⟩
            constructor
            · intro equal
              exact .inr (by omega)
            · rintro (all | zero)
              · exact absurd all.1 ascii
              · omega

theorem number_eq {s : JavaString} {n : ℕ} :
    digits.number s = some n ↔ s ≠ [] ∧ fullValue digits s 0 = some n := by
  rw [Digits.number]
  split_ifs with empty
  · exact iff_of_false nofun fun both => both.1 empty
  · exact (and_iff_right empty).symm

theorem digit_of_mem {s : JavaString} {sum n : ℕ}
    (value : fullValue digits s sum = some n) {c : UInt16} (mem : c ∈ s) :
    digits.digit c ≠ none := by
  induction s generalizing sum with
  | nil => exact nomatch mem
  | cons first s ih =>
      rw [fullValue, List.foldlM_cons] at value
      cases digit : digits.digit first with
      | none =>
          rw [digit] at value
          exact nomatch value
      | some d =>
          rw [digit] at value
          rcases List.mem_cons.mp mem with rfl | mem
          · rw [digit]
            exact nofun
          · exact ih value mem

/-- What a number is written as: its digits, or no digits but zeros behind a
minus sign. -/
theorem parseInt_eq_some {s : JavaString} {n : ℕ}
    (unsigned : char '+' ∉ s)
    (parsed : digits.parseInt s = some (n : ℤ)) :
    (s ≠ [] ∧ fullValue digits s 0 = some n) ∨
      ∃ rest, s = char '-' :: rest ∧ fullValue digits rest 0 = some 0 ∧
        n = 0 := by
  cases s with
  | nil => exact nomatch parsed
  | cons sign rest =>
      rw [List.mem_cons, not_or] at unsigned
      rw [Digits.parseInt] at parsed
      by_cases minus : sign = char '-'
      · rw [if_pos minus] at parsed
        cases found : digits.number rest with
        | none =>
            rw [found] at parsed
            exact nomatch parsed
        | some m =>
            rw [found] at parsed
            dsimp only at parsed
            split_ifs at parsed
            have zero := Option.some.inj parsed
            have m' : m = 0 := by omega
            subst m'
            exact .inr ⟨rest, by rw [minus], (number_eq.mp found).2,
              by omega⟩
      · rw [if_neg minus, if_neg (Ne.symm unsigned.1)] at parsed
        cases found : digits.number (sign :: rest) with
        | none =>
            rw [found] at parsed
            exact nomatch parsed
        | some m =>
            rw [found] at parsed
            dsimp only at parsed
            split_ifs at parsed
            have same := Option.some.inj parsed
            rw [Int.natCast_inj] at same
            exact .inl (same ▸ number_eq.mp found)

theorem digit_ascii {c : UInt16} (ascii : c < 128)
    (digit : digits.digit c ≠ none) : char '0' ≤ c ∧ c ≤ char '9' := by
  have known := digits.ascii c ascii
  split_ifs at known with range
  · exact range
  · exact absurd known digit

/-- A port that is a number has no blank. -/
theorem not_mem_plus {s : JavaString} {n : ℕ}
    (parsed : digits.parseInt (blanked s) = some (n : ℤ)) :
    char '+' ∉ s := by
  intro mem
  have plus : char '+' ∉ blanked s := by
    intro mem
    obtain ⟨c, -, same⟩ := List.mem_map.mp mem
    split_ifs at same with plus
    · exact absurd same (by decide)
    · exact plus same
  have blank : char ' ' ∈ blanked s :=
    List.mem_map.mpr ⟨char '+', mem, if_pos rfl⟩
  have noDigit : ¬ (char '0' ≤ char ' ' ∧ char ' ' ≤ char '9') := by decide
  have ascii : char ' ' < 128 := by decide
  rcases parseInt_eq_some plus parsed with ⟨-, value⟩ | ⟨rest, same, value, -⟩
  · exact noDigit (digit_ascii ascii (digit_of_mem value blank))
  · rw [same] at blank
    rcases List.mem_cons.mp blank with minus | blank
    · exact absurd minus (by decide)
    · exact noDigit (digit_ascii ascii (digit_of_mem value blank))

theorem blanked_eq_self {s : JavaString} : blanked s = s ↔ char '+' ∉ s := by
  induction s with
  | nil => exact iff_of_true rfl List.not_mem_nil
  | cons c s ih =>
      rw [blanked, List.map_cons, List.cons.injEq, List.mem_cons, not_or]
      refine and_congr ?_ ih
      split_ifs with plus
      · subst plus
        exact iff_of_false (by decide) fun other => other rfl
      · exact iff_of_true rfl (Ne.symm plus)

theorem not_isspace {first : UInt8} (large : 32 < first.toNat) :
    ¬ isspace first = true := by
  intro space
  rcases of_decide_eq_true space with rfl | ⟨-, most⟩
  · exact absurd large (by decide)
  · have most' : first.toNat ≤ 13 := most
    omega

/-- Without a blank or a sign, `atoi` takes the digits in front. -/
theorem atoi_eq {first : UInt8} (b : CString) (large : 47 < first.toNat) :
    atoi (first :: b) = (prefixValue (first :: b) 0 : ℕ) := by
  have other (sign : UInt8) (small : sign.toNat ≤ 47) : first ≠ sign := by
    rintro rfl
    omega
  rw [atoi, List.dropWhile_cons_of_neg (not_isspace (by omega))]
  dsimp only
  rw [if_neg (other _ (by decide)), if_neg (other _ (by decide))]
  rfl

theorem toNat_ofInt {n : ℕ} (small : n < 65536) :
    (UInt16.ofInt (n : ℤ)).toNat = n := by
  rw [UInt16.ofInt, UInt16.toNat_ofNat']
  omega

/-- `atoi` finds the port that `Integer.parseInt` does if its digits are ASCII
or if it is zero. -/
theorem atoi_eq_iff {s : JavaString} {b : CString} {n : Fin 65536}
    (same : SameText s b)
    (parsed : digits.parseInt (blanked s) = some (n.val : ℤ)) :
    (UInt16.ofInt (atoi b)).toNat = n.val ↔
      (∀ c ∈ s, c < 128) ∨ digits.parseInt s = some 0 := by
  have plus := not_mem_plus parsed
  rw [blanked_eq_self.mpr plus] at parsed
  have zero : digits.parseInt s = some 0 ↔ n.val = 0 := by
    rw [parsed, Option.some_inj]
    omega
  rw [zero]
  rcases parseInt_eq_some plus parsed with ⟨nonempty, value⟩ |
    ⟨rest, rfl, value, none⟩
  · obtain ⟨least, equal⟩ := prefixValue_eq_iff same value
    obtain ⟨c, s, rfl⟩ := List.exists_cons_of_ne_nil nonempty
    have found : atoi b = (prefixValue b 0 : ℕ) := by
      by_cases ascii : c < 128
      · obtain ⟨rest, rfl, -⟩ := same.cons_ascii ascii
        refine atoi_eq rest ?_
        have range := digit_ascii ascii
          (digit_of_mem value List.mem_cons_self)
        have least' : 48 ≤ c.toNat := range.1
        have small : c.toNat < 128 := ascii
        rw [Nat.toUInt8, UInt8.toNat_ofNat', Nat.mod_eq_of_lt (by omega)]
        omega
      · obtain ⟨first, rest, rfl, other⟩ := same.cons_other ascii
        refine atoi_eq rest ?_
        have large : ¬ first.toNat < 128 := other
        omega
    have small := n.isLt
    rw [found, ← equal, toNat_ofInt (by omega)]
  · obtain ⟨b, rfl⟩ := (same.cons_iff (by decide)).mp ⟨rest, rfl⟩
    obtain ⟨least, -⟩ :=
      prefixValue_eq_iff (same.tail (by decide)) value
    have found : atoi (byte '-' :: b) = 0 := by
      rw [atoi, List.dropWhile_cons_of_neg (by decide)]
      dsimp only
      rw [if_pos rfl]
      have none : digitsValue b = 0 := Nat.le_zero.mp least
      rw [none]
      rfl
    refine iff_of_true ?_ (.inr none)
    rw [found, none]
    rfl

end

end Etch.Cpp
