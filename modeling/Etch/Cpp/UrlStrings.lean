import Etch.Cpp.EtchURL
import Etch.Java.UrlPieces
import Etch.Java.Utf8

/-!
# One text as a Java string and as a C string

A text is a sequence of characters, which Java has in UTF-16 and C++ in UTF-8.
Every ASCII character is a unit of its own in both, so that cutting at a
delimiter comes to the same.
-/

namespace Etch.Cpp

open Etch.Java (JavaString char)
open Etch.Library.Splitting

section

open EtchString EtchURL

variable {s front back : CString} {c : UInt8}

theorem leftFind_of_cut {behind : Option CString}
    (parts : cut c s = (front, behind)) :
    leftFind s c = behind.map fun _ => front.length := by
  obtain ⟨free, rfl⟩ := cut_eq_iff.mp parts
  unfold leftFind
  cases behind with
  | none => exact List.idxOf?_eq_none_iff.mpr free
  | some back =>
      rw [joined_some, Option.map_some]
      clear parts
      induction front with
      | nil => simp [List.idxOf?_cons]
      | cons first front ih =>
          rw [List.mem_cons, not_or] at free
          rw [List.cons_append, List.idxOf?_cons,
            if_neg (by simpa using Ne.symm free.1), ih free.2]
          rfl

theorem substrings_of_cut (parts : cut c s = (front, some back)) :
    substrings s (some front.length) =
      if back = [] then .error .ETCH_EINVAL else .ok (front, back) := by
  obtain ⟨-, rfl⟩ := cut_eq_iff.mp parts
  have first : substring (front ++ c :: back) 0 front.length = .ok front := by
    unfold substring
    rw [if_neg (by simp), List.drop_zero, List.take_left]
  have second : substring (front ++ c :: back) (front.length + 1)
      ((front ++ c :: back).length - (front.length + 1)) =
        if back = [] then .error .ETCH_EINVAL else .ok back := by
    have size : (front ++ c :: back).length = front.length + 1 + back.length := by
      simp
      omega
    have rest : (front ++ c :: back).drop (front.length + 1) = back := by
      rw [List.drop_append, List.drop_eq_nil_of_le (by omega)]
      simp
    unfold substring
    rw [size, rest, Nat.add_sub_cancel_left, List.take_length]
    cases back with
    | nil => simp
    | cons d back => simp
  unfold substrings
  rw [joined_some]
  change (do
    let x0 ← substring (front ++ c :: back) 0 front.length
    let x1 ← substring (front ++ c :: back) (front.length + 1)
      ((front ++ c :: back).length - (front.length + 1))
    return (x0, x1)) = _
  rw [first, second]
  split_ifs
  · rfl
  · rfl

/-- No substring is as long as -1 says. -/
theorem substrings_none (small : s.length < 2 ^ 32 - 1) :
    substrings s none = .error .ETCH_EINVAL := by
  have first : substring s 0 (2 ^ 32 - 1) = .error .ETCH_EINVAL := by
    rw [substring, if_pos (.inr (by omega))]
  unfold substrings
  change (do
    let x0 ← substring s 0 (2 ^ 32 - 1)
    let x1 ← substring s 0 (s.length - 0)
    return (x0, x1)) = _
  rw [first]
  rfl

end

/-! ## Texts -/

/-- The bytes of a text in UTF-8. -/
def utf8 (text : List Char) : CString :=
  text.flatMap String.utf8EncodeChar

/-- The two strings are the same text. -/
def SameText (a : JavaString) (b : CString) : Prop :=
  ∃ text, a = Java.Utf8.ofChars text ∧ b = utf8 text

theorem ofChar_ascii {d : Char} (ascii : d.toNat < 128) :
    Java.Utf8.ofChar d = [char d] := by
  rw [Java.Utf8.ofChar, if_pos (by omega)]
  rfl

theorem mem_ofChar {d c : Char} (ascii : d.toNat < 128)
    (mem : char d ∈ Java.Utf8.ofChar c) : c = d := by
  have unit : (char d).toNat = d.toNat := by
    rw [char, Nat.toUInt16, UInt16.toNat_ofNat']
    exact Nat.mod_eq_of_lt (by omega)
  have bound : c.toNat < 0x110000 := by
    rcases c.valid with low | high
    · exact Nat.lt_trans low (by decide)
    · exact high.2
  unfold Java.Utf8.ofChar at mem
  split_ifs at mem with small
  · have same := congrArg UInt16.toNat (List.mem_singleton.mp mem)
    rw [unit, Nat.toUInt16, UInt16.toNat_ofNat',
      Nat.mod_eq_of_lt (by omega)] at same
    exact Char.toNat_inj.mp same.symm
  · simp only [List.mem_cons, List.not_mem_nil, or_false] at mem
    rcases mem with mem | mem
    · have same := congrArg UInt16.toNat mem
      rw [unit, Nat.toUInt16, UInt16.toNat_ofNat',
        Nat.mod_eq_of_lt (by omega)] at same
      omega
    · have same := congrArg UInt16.toNat mem
      rw [unit, Nat.toUInt16, UInt16.toNat_ofNat',
        Nat.mod_eq_of_lt (by omega)] at same
      omega

theorem utf8_ascii {d : Char} (ascii : d.toNat < 128) :
    String.utf8EncodeChar d = [byte d] := by
  have small : d.val.toNat ≤ 0x7f := Nat.le_of_lt_succ ascii
  unfold String.utf8EncodeChar
  rw [if_pos small]
  rfl

theorem mem_utf8EncodeChar {d c : Char} (ascii : d.toNat < 128)
    (mem : byte d ∈ String.utf8EncodeChar c) : c = d := by
  have unit : (byte d).toNat = d.toNat := by
    rw [byte, Nat.toUInt8, UInt8.toNat_ofNat']
    exact Nat.mod_eq_of_lt (by omega)
  have other (n : ℕ) (least : 128 ≤ n) (most : n < 256) :
      byte d ≠ UInt8.ofNat n := by
    intro same
    have same := congrArg UInt8.toNat same
    rw [unit, UInt8.toNat_ofNat', Nat.mod_eq_of_lt most] at same
    omega
  unfold String.utf8EncodeChar at mem
  dsimp only at mem
  split_ifs at mem with one two three
  · have same := congrArg UInt8.toNat (List.mem_singleton.mp mem)
    rw [unit, UInt8.toNat_ofNat', Nat.mod_eq_of_lt (by omega)] at same
    exact Char.toNat_inj.mp same.symm
  · rcases List.mem_cons.mp mem with same | mem
    · exact absurd same (other _ (by omega) (by omega))
    · exact absurd (List.mem_singleton.mp mem) (other _ (by omega) (by omega))
  · rcases List.mem_cons.mp mem with same | mem
    · exact absurd same (other _ (by omega) (by omega))
    · rcases List.mem_cons.mp mem with same | mem
      · exact absurd same (other _ (by omega) (by omega))
      · exact absurd (List.mem_singleton.mp mem)
          (other _ (by omega) (by omega))
  · rcases List.mem_cons.mp mem with same | mem
    · exact absurd same (other _ (by omega) (by omega))
    · rcases List.mem_cons.mp mem with same | mem
      · exact absurd same (other _ (by omega) (by omega))
      · rcases List.mem_cons.mp mem with same | mem
        · exact absurd same (other _ (by omega) (by omega))
        · exact absurd (List.mem_singleton.mp mem)
            (other _ (by omega) (by omega))

theorem utf8_injective : Function.Injective utf8 := by
  intro text other same
  have decoded (text : List Char) :
      (utf8 text).toByteArray.utf8Decode? = some text.toArray :=
    List.utf8Decode?_utf8Encode
  have equal := (decoded text).symm.trans (same ▸ decoded other)
  exact List.toArray_inj (Option.some.inj equal)

/-- A character is the same as the one in front of another string. -/
theorem ofChar_append_inj {c d : Char} {a b : JavaString}
    (same : Java.Utf8.ofChar c ++ a = Java.Utf8.ofChar d ++ b) :
    c = d ∧ a = b := by
  have toNat (n : ℕ) (small : n < 0x10000) : n.toUInt16.toNat = n := by
    rw [Nat.toUInt16, UInt16.toNat_ofNat']
    exact Nat.mod_eq_of_lt small
  have valid (c : Char) : c.toNat < 0xD800 ∨
      0xDFFF < c.toNat ∧ c.toNat < 0x110000 := c.valid
  have first := valid c
  have second := valid d
  unfold Java.Utf8.ofChar at same
  split_ifs at same with small small' small'
  · obtain ⟨equal, rest⟩ := List.cons.inj same
    have equal := congrArg UInt16.toNat equal
    rw [toNat _ small, toNat _ small'] at equal
    exact ⟨Char.toNat_inj.mp equal, rest⟩
  · have equal := congrArg UInt16.toNat (List.cons.inj same).1
    rw [toNat _ small, toNat _ (by omega)] at equal
    omega
  · have equal := congrArg UInt16.toNat (List.cons.inj same).1
    rw [toNat _ (by omega), toNat _ small'] at equal
    omega
  · obtain ⟨high, rest⟩ := List.cons.inj same
    obtain ⟨low, rest⟩ := List.cons.inj rest
    have high := congrArg UInt16.toNat high
    have low := congrArg UInt16.toNat low
    rw [toNat _ (by omega), toNat _ (by omega)] at high low
    exact ⟨Char.toNat_inj.mp (by omega), rest⟩

theorem ofChars_injective : Function.Injective Java.Utf8.ofChars := by
  have nonempty (c : Char) (text : List Char) :
      Java.Utf8.ofChars (c :: text) ≠ [] := by
    change Java.Utf8.ofChar c ++ _ ≠ []
    unfold Java.Utf8.ofChar
    split_ifs
    · exact List.cons_ne_nil _ _
    · exact List.cons_ne_nil _ _
  intro text
  induction text with
  | nil =>
      intro other same
      cases other with
      | nil => rfl
      | cons c other => exact absurd same.symm (nonempty c other)
  | cons c text ih =>
      intro other same
      cases other with
      | nil => exact absurd same (nonempty c text)
      | cons d other =>
          obtain ⟨rfl, rest⟩ := ofChar_append_inj
            (a := Java.Utf8.ofChars text) (b := Java.Utf8.ofChars other) same
          rw [ih rest]

namespace SameText

variable {a a' : JavaString} {b b' : CString}

theorem nil : SameText [] [] :=
  ⟨[], rfl, rfl⟩

theorem left_unique (same : SameText a b) (same' : SameText a' b) :
    a = a' := by
  obtain ⟨text, rfl, rfl⟩ := same
  obtain ⟨text', rfl, equal⟩ := same'
  rw [utf8_injective equal]

theorem right_unique (same : SameText a b) (same' : SameText a b') :
    b = b' := by
  obtain ⟨text, rfl, rfl⟩ := same
  obtain ⟨text', equal, rfl⟩ := same'
  rw [ofChars_injective equal]

theorem nil_iff (same : SameText a b) : a = [] ↔ b = [] := by
  constructor
  · rintro rfl
    exact same.right_unique nil
  · rintro rfl
    exact same.left_unique nil

/-- Cutting at a delimiter comes to the same. -/
theorem split {d : Char} (ascii : d.toNat < 128) (same : SameText a b) :
    SameText (cut (char d) a).1 (cut (byte d) b).1 ∧
      Option.Rel SameText (cut (char d) a).2 (cut (byte d) b).2 := by
  obtain ⟨text, rfl, rfl⟩ := same
  rw [Java.Utf8.ofChars, utf8,
    cut_flatMap (ofChar_ascii ascii) (fun _ => mem_ofChar ascii),
    cut_flatMap (utf8_ascii ascii) (fun _ => mem_utf8EncodeChar ascii)]
  refine ⟨⟨_, rfl, rfl⟩, ?_⟩
  cases (cut d text).2 with
  | none => exact .none
  | some back => exact .some ⟨back, rfl, rfl⟩

/-- What the two parts are when they are known. -/
theorem split_eq {d : Char} (ascii : d.toNat < 128) (same : SameText a b)
    {front : JavaString} {back : Option JavaString}
    (parts : cut (char d) a = (front, back)) :
    ∃ front' back', cut (byte d) b = (front', back') ∧
      SameText front front' ∧ Option.Rel SameText back back' := by
  have both := same.split ascii
  rw [parts] at both
  exact ⟨_, _, rfl, both⟩

/-- A delimiter that comes first is the first byte. -/
theorem cons_iff {d : Char} (ascii : d.toNat < 128) (same : SameText a b) :
    (∃ rest, a = char d :: rest) ↔ ∃ rest, b = byte d :: rest := by
  constructor
  · rintro ⟨rest, rfl⟩
    obtain ⟨front', back', parts', first, rest⟩ :=
      same.split_eq ascii (cut_cons (char d) rest)
    obtain rfl := first.nil_iff.mp rfl
    cases rest with
    | @some _ back rest =>
        exact ⟨back, (cut_eq_iff.mp parts').2.symm⟩
  · rintro ⟨rest, rfl⟩
    have both := same.split ascii
    rw [cut_cons] at both
    have empty := both.1.nil_iff.mpr rfl
    cases behind : (cut (char d) a).2 with
    | none =>
        rw [behind] at both
        exact nomatch both.2
    | some back =>
        have whole := joined_cut (char d) a
        rw [behind, empty] at whole
        exact ⟨back, whole.symm⟩

theorem tail {d : Char} (ascii : d.toNat < 128)
    (same : SameText (char d :: a) (byte d :: b)) : SameText a b := by
  have both := same.split ascii
  rw [cut_cons, cut_cons] at both
  cases both.2 with
  | some rest => exact rest

end SameText

end Etch.Cpp
