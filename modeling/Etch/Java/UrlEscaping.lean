import Etch.Java.UrlPieces
import Mathlib.Tactic.IntervalCases

/-!
# Escape sequences

A string is a sequence of characters and escape sequences.  What `escape`
writes is read as what it was as far as the low bytes of the characters go; it
has no delimiter but the slashes that were there before.
-/

namespace Etch.Java.Url

open Etch.Library.Fallible
open StringUtil

/-! ## Reading -/

/-- A string and what it stands for, one token after the other. -/
inductive Tokens : JavaString → JavaString → Prop where
  | nil : Tokens [] []
  | escaped {c1 c2 : UInt16} {high low : Int32} {s w : JavaString}
      (first : fromHex c1 = .ok high) (second : fromHex c2 = .ok low)
      (rest : Tokens s w) :
      Tokens (char '%' :: c1 :: c2 :: s) (escapedChar high low :: w)
  | plain {c : UInt16} {s w : JavaString} (unescaped : c ≠ char '%')
      (rest : Tokens s w) :
      Tokens (c :: s) ((if c = char '+' then char ' ' else c) :: w)

theorem tokens_of_unescape {s w : JavaString} (read : unescape s = .ok w) :
    Tokens s w := by
  fun_induction unescape generalizing w with
  | case1 =>
      obtain rfl := Except.ok.inj read
      exact .nil
  | case2 c1 c2 s ih =>
      obtain ⟨high, first, read⟩ := bind_eq_ok_iff.mp read
      obtain ⟨low, second, read⟩ := bind_eq_ok_iff.mp read
      obtain ⟨w', rest, same⟩ := bind_eq_ok_iff.mp read
      obtain rfl := Except.ok.inj same
      exact .escaped first second (ih rest)
  | case3 => exact nomatch read
  | case4 s _ ih =>
      obtain ⟨w', rest, same⟩ := bind_eq_ok_iff.mp read
      obtain rfl := Except.ok.inj same
      exact .plain (by decide) (ih rest)
  | case5 c s unescaped not_plus ih =>
      obtain ⟨w', rest, same⟩ := bind_eq_ok_iff.mp read
      obtain rfl := Except.ok.inj same
      have plain := Tokens.plain unescaped (ih rest)
      rwa [if_neg not_plus] at plain

theorem unescape_of_tokens {s w : JavaString} (tokens : Tokens s w) :
    unescape s = .ok w := by
  induction tokens with
  | nil => rfl
  | escaped first second _ ih =>
      rw [unescape, if_pos rfl]
      simp only [first, second, ih, ok_bind]
      rfl
  | @plain c s w unescaped _ ih =>
      unfold unescape
      rw [if_neg unescaped, ih]
      split_ifs
      · rfl
      · rfl

/-! ## Hexadecimal digits -/

def hexDigits : List UInt16 :=
  text "0123456789ABCDEFabcdef"

/-- The value of a digit; other characters have none. -/
def hexValue (c : UInt16) : Int32 :=
  match fromHex c with
  | .ok value => value
  | .error _ => 0

theorem between {low high c : UInt16} (least : low ≤ c) (most : c ≤ high) :
    low.toNat ≤ c.toNat ∧ c.toNat ≤ high.toNat :=
  ⟨least, most⟩

theorem mem_hexDigits {c : UInt16} {value : Int32}
    (read : fromHex c = .ok value) : c ∈ hexDigits ∧ value = hexValue c := by
  have same : value = hexValue c := by rw [hexValue, read]
  refine ⟨?_, same⟩
  have range : c.toNat ∈ hexDigits.map UInt16.toNat := by
    unfold fromHex at read
    split_ifs at read with digit upper lower
    · obtain ⟨least, most⟩ := between digit.1 digit.2
      change 48 ≤ c.toNat at least
      change c.toNat ≤ 57 at most
      interval_cases c.toNat <;> decide
    · obtain ⟨least, most⟩ := between upper.1 upper.2
      change 65 ≤ c.toNat at least
      change c.toNat ≤ 70 at most
      interval_cases c.toNat <;> decide
    · obtain ⟨least, most⟩ := between lower.1 lower.2
      change 97 ≤ c.toNat at least
      change c.toNat ≤ 102 at most
      interval_cases c.toNat <;> decide
  obtain ⟨digit, mem, equal⟩ := List.mem_map.mp range
  rwa [← UInt16.toNat_inj.mp equal]

/-- `A` to `F`, which `fromHex` takes for negative numbers. -/
def IsUpper (c : UInt16) : Prop :=
  char 'A' ≤ c ∧ c ≤ char 'F'

instance (c : UInt16) : Decidable (IsUpper c) :=
  inferInstanceAs (Decidable (_ ∧ _))

/-- A check of all pairs of digits. -/
theorem forall_hexDigits {p : UInt16 → UInt16 → Prop}
    [∀ c1 c2, Decidable (p c1 c2)]
    (all : hexDigits.all (fun c1 =>
      hexDigits.all fun c2 => decide (p c1 c2)) = true) :
    ∀ c1 ∈ hexDigits, ∀ c2 ∈ hexDigits, p c1 c2 :=
  fun c1 mem => forall_mem_of_all (List.all_eq_true.mp all c1 mem)

/-- With an upper case digit the value is no byte. -/
theorem escapedChar_lt : ∀ c1 ∈ hexDigits, ∀ c2 ∈ hexDigits,
    escapedChar (hexValue c1) (hexValue c2) < 256 ↔
      ¬ IsUpper c1 ∧ ¬ IsUpper c2 :=
  forall_hexDigits (by decide +kernel)

theorem escapedChar_eq_slash : ∀ c1 ∈ hexDigits, ∀ c2 ∈ hexDigits,
    escapedChar (hexValue c1) (hexValue c2) = char '/' ↔
      c1 = char '2' ∧ c2 = char 'f' :=
  forall_hexDigits (by decide +kernel)

/-! ## What the tokens are -/

/-- Something is true of the digits of every escape sequence and of every
other character. -/
def EachToken (escapes : UInt16 → UInt16 → Prop) (plain : UInt16 → Prop) :
    JavaString → Prop
  | [] => True
  | c :: rest =>
      if c = char '%' then
        match rest with
        | c1 :: c2 :: rest => escapes c1 c2 ∧ EachToken escapes plain rest
        | _ => False
      else
        plain c ∧ EachToken escapes plain rest

/-- No character and no escape sequence stands for more than a byte. -/
def Narrow : JavaString → Prop :=
  EachToken (fun c1 c2 => ¬ IsUpper c1 ∧ ¬ IsUpper c2) (· < 256)

/-- There is no slash, not even an escaped one. -/
def SlashFree : JavaString → Prop :=
  EachToken (fun c1 c2 => ¬ (c1 = char '2' ∧ c2 = char 'f')) (· ≠ char '/')

/-- A slash, or an escape sequence for one, taken away. -/
def dropSlash : JavaString → Option JavaString
  | [] => none
  | c :: rest =>
      if c = char '/' then
        some rest
      else if c = char '%' then
        match rest with
        | c1 :: c2 :: rest =>
            if c1 = char '2' ∧ c2 = char 'f' then some rest else none
        | _ => none
      else
        none

theorem dropSlash_escaped (c1 c2 : UInt16) (s : JavaString) :
    dropSlash (char '%' :: c1 :: c2 :: s) =
      if c1 = char '2' ∧ c2 = char 'f' then some s else none :=
  rfl

theorem dropSlash_plain {c : UInt16} (unescaped : c ≠ char '%')
    (s : JavaString) :
    dropSlash (c :: s) = if c = char '/' then some s else none := by
  simp [dropSlash, unescaped]

/-- The string stands for one that begins with two slashes. -/
def BeginsWithSlashes (s : JavaString) : Prop :=
  ((dropSlash s).bind dropSlash).isSome = true

theorem Tokens.each {escapes : UInt16 → UInt16 → Prop}
    {plain good : UInt16 → Prop} {s w : JavaString} (tokens : Tokens s w)
    (escaped : ∀ c1 ∈ hexDigits, ∀ c2 ∈ hexDigits,
      good (escapedChar (hexValue c1) (hexValue c2)) ↔ escapes c1 c2)
    (others : ∀ c, good (if c = char '+' then char ' ' else c) ↔ plain c) :
    (∀ c ∈ w, good c) ↔ EachToken escapes plain s := by
  induction tokens with
  | nil => exact iff_of_true (by simp) trivial
  | @escaped c1 c2 high low s w first second _ ih =>
      obtain ⟨digit, rfl⟩ := mem_hexDigits first
      obtain ⟨digit', rfl⟩ := mem_hexDigits second
      rw [List.forall_mem_cons, EachToken, if_pos rfl,
        escaped c1 digit c2 digit', ih]
  | @plain c s w unescaped _ ih =>
      unfold EachToken
      rw [List.forall_mem_cons, if_neg unescaped, others c, ih]

theorem Tokens.narrow_iff {s w : JavaString} (tokens : Tokens s w) :
    (∀ c ∈ w, c < 256) ↔ Narrow s := by
  refine tokens.each escapedChar_lt fun c => ?_
  split_ifs with plus
  · subst plus
    exact iff_of_true (by decide) (by decide)
  · exact Iff.rfl

theorem Tokens.slashFree_iff {s w : JavaString} (tokens : Tokens s w) :
    char '/' ∉ w ↔ SlashFree s := by
  have each : (∀ c ∈ w, c ≠ char '/') ↔ SlashFree s := by
    refine tokens.each (fun c1 digit c2 digit' =>
      not_congr (escapedChar_eq_slash c1 digit c2 digit')) fun c => ?_
    split_ifs with plus
    · subst plus
      exact iff_of_true (by decide) (by decide)
    · exact Iff.rfl
  rw [← each]
  exact ⟨fun free c mem same => free (same ▸ mem),
    fun free mem => free _ mem rfl⟩

/-- The first token is for a slash if and only if the first character is one.
-/
theorem Tokens.dropSlash_eq_some {s w rest : JavaString}
    (tokens : Tokens s w) (dropped : dropSlash s = some rest) :
    ∃ w', w = char '/' :: w' ∧ Tokens rest w' := by
  cases tokens with
  | nil => exact nomatch dropped
  | @escaped c1 c2 high low s w first second tokens =>
      obtain ⟨digit, rfl⟩ := mem_hexDigits first
      obtain ⟨digit', rfl⟩ := mem_hexDigits second
      rw [dropSlash_escaped] at dropped
      split_ifs at dropped with slash
      obtain rfl := Option.some.inj dropped
      rw [(escapedChar_eq_slash c1 digit c2 digit').mpr slash]
      exact ⟨w, rfl, tokens⟩
  | @plain c s w unescaped tokens =>
      rw [dropSlash_plain unescaped] at dropped
      split_ifs at dropped with slash
      obtain rfl := Option.some.inj dropped
      subst slash
      exact ⟨w, rfl, tokens⟩

theorem Tokens.dropSlash_eq_none {s w : JavaString} (tokens : Tokens s w)
    (dropped : dropSlash s = none) (w' : JavaString) :
    w ≠ char '/' :: w' := by
  cases tokens with
  | nil => exact nofun
  | @escaped c1 c2 high low s w first second tokens =>
      obtain ⟨digit, rfl⟩ := mem_hexDigits first
      obtain ⟨digit', rfl⟩ := mem_hexDigits second
      rw [dropSlash_escaped] at dropped
      split_ifs at dropped with slash
      intro same
      exact slash ((escapedChar_eq_slash c1 digit c2 digit').mp
        (List.cons.inj same).1)
  | @plain c s w unescaped tokens =>
      rw [dropSlash_plain unescaped] at dropped
      split_ifs at dropped with slash
      intro same
      have first := (List.cons.inj same).1
      split_ifs at first with plus
      · exact absurd first (by decide)
      · exact slash first

theorem Tokens.beginsWithSlashes_iff {s w : JavaString}
    (tokens : Tokens s w) :
    (text "//").isPrefixOf w = true ↔ BeginsWithSlashes s := by
  have slashes : text "//" = [char '/', char '/'] := by decide
  rw [List.isPrefixOf_iff_prefix, BeginsWithSlashes, slashes]
  cases first : dropSlash s with
  | none =>
      refine iff_of_false ?_ nofun
      rintro ⟨w', rfl⟩
      exact tokens.dropSlash_eq_none first _ rfl
  | some rest =>
      obtain ⟨w', rfl, tokens'⟩ := tokens.dropSlash_eq_some first
      rw [Option.bind_some]
      cases second : dropSlash rest with
      | none =>
          refine iff_of_false ?_ nofun
          rintro ⟨w'', same⟩
          exact tokens'.dropSlash_eq_none second w''
            (List.cons.inj same).2.symm
      | some rest' =>
          obtain ⟨w'', rfl, -⟩ := tokens'.dropSlash_eq_some second
          exact iff_of_true ⟨w'', rfl⟩ rfl

/-- A delimiter is a token of its own. -/
theorem Tokens.append {front back w : JavaString} {delimiter : UInt16}
    (tokens : Tokens (front ++ delimiter :: back) w)
    (percent : delimiter ≠ char '%') (plus : delimiter ≠ char '+')
    (digit : delimiter ∉ hexDigits) :
    ∃ w₁ w₂, Tokens front w₁ ∧ Tokens back w₂ ∧ w = w₁ ++ delimiter :: w₂ := by
  generalize whole : front ++ delimiter :: back = s at tokens
  induction tokens generalizing front with
  | nil => exact nomatch (List.append_eq_nil_iff.mp whole).2
  | @escaped c1 c2 high low s w first second tokens ih =>
      rcases front with - | ⟨c, - | ⟨c', - | ⟨c'', front⟩⟩⟩
      · exact absurd (List.cons.inj whole).1 percent
      · obtain ⟨-, rfl, -⟩ : _ ∧ delimiter = c1 ∧ _ := by
          simpa using whole
        exact absurd (mem_hexDigits first).1 digit
      · obtain ⟨-, -, rfl, -⟩ : _ ∧ _ ∧ delimiter = c2 ∧ _ := by
          simpa using whole
        exact absurd (mem_hexDigits second).1 digit
      · obtain ⟨rfl, rfl, rfl, rest⟩ : c = _ ∧ c' = c1 ∧ c'' = c2 ∧
            front ++ delimiter :: back = s := by
          simpa using whole
        obtain ⟨w₁, w₂, front', back', rfl⟩ := ih rest
        exact ⟨_, w₂, .escaped first second front', back', rfl⟩
  | @plain c s w unescaped tokens ih =>
      rcases front with - | ⟨c', front⟩
      · obtain ⟨rfl, rfl⟩ : delimiter = c ∧ back = s := by
          simpa using whole
        rw [if_neg plus]
        exact ⟨[], w, .nil, tokens, rfl⟩
      · obtain ⟨rfl, rest⟩ : c' = c ∧ front ++ delimiter :: back = s := by
          simpa using whole
        obtain ⟨w₁, w₂, front', back', rfl⟩ := ih rest
        exact ⟨_, w₂, .plain unescaped front', back', rfl⟩

/-! ## Writing -/

/-- The low byte of each character. -/
def narrowed (w : JavaString) : JavaString :=
  w.map (· % 256)

theorem narrowed_eq_iff {w : JavaString} :
    narrowed w = w ↔ ∀ c ∈ w, c < 256 := by
  have narrow (c : UInt16) : c % 256 = c ↔ c < 256 := by
    rw [← UInt16.toNat_inj, UInt16.toNat_mod, UInt16.lt_iff_toNat_lt]
    exact Nat.mod_eq_iff_lt (by decide)
  induction w with
  | nil => simp [narrowed]
  | cons c w ih =>
      rw [List.forall_mem_cons, ← narrow]
      change (c % 256 :: narrowed w) = c :: w ↔ _
      rw [List.cons.injEq]
      exact and_congr_right fun _ => ih

theorem fromHex_toHex : ∀ i : Fin 16,
    fromHex (toHex i) = .ok (Int32.ofNat i.val) := by
  decide

theorem escapedChar_ofNat : ∀ high low : Fin 16,
    escapedChar (Int32.ofNat high.val) (Int32.ofNat low.val) =
      UInt16.ofNat (16 * high.val + low.val) := by
  decide +kernel

theorem isEscaped_toHex : ∀ i : Fin 16,
    isEscaped (toHex i) = false := by
  decide

/-- A character that is written as it is. -/
theorem lt_of_not_isEscaped {c : UInt16} (written : isEscaped c = false) :
    c < 128 := by
  have small {high : UInt16} (least : high < 128) (most : c ≤ high) :
      c < 128 := UInt16.lt_of_le_of_lt most least
  unfold isEscaped at written
  split_ifs at written with digit upper lower
  · exact small (by decide) digit.2
  · exact small (by decide) upper.2
  · exact small (by decide) lower.2
  · have mem := of_not_not (of_decide_eq_false written)
    have others : ∀ c ∈ text " ,./!$^*()_-\x7b\x7d[]|\\", c < 128 :=
      forall_mem_of_all (by decide)
    exact others c mem

theorem tokens_escapeChar (c : UInt16) {s w : JavaString}
    (rest : Tokens s w) : Tokens (escapeChar c ++ s) (c % 256 :: w) := by
  unfold escapeChar
  split_ifs with escaped blank
  · have value : c % 256 =
        escapedChar (Int32.ofNat (Fin.ofNat 16 (c.toNat / 16)).val)
          (Int32.ofNat (Fin.ofNat 16 c.toNat).val) := by
      rw [escapedChar_ofNat, ← UInt16.toNat_inj, UInt16.toNat_mod]
      simp only [Fin.val_ofNat, UInt16.toNat_ofNat']
      change c.toNat % 256 = _
      have size := c.toNat_lt
      omega
    rw [value]
    exact .escaped (fromHex_toHex _) (fromHex_toHex _) rest
  · rw [blank]
    exact Tokens.plain (by decide) rest
  · have narrow : c % 256 = c := by
      rw [← UInt16.toNat_inj, UInt16.toNat_mod]
      exact Nat.mod_eq_of_lt (Nat.lt_of_lt_of_le (UInt16.lt_iff_toNat_lt.mp
        (lt_of_not_isEscaped (by simpa using escaped))) (by decide))
    have percent : c ≠ char '%' := by
      rintro rfl
      exact escaped (by decide)
    have plus : c ≠ char '+' := by
      rintro rfl
      exact escaped (by decide)
    have plain := Tokens.plain percent rest
    rw [if_neg plus] at plain
    rwa [narrow]

/-- What has been escaped stands for its low bytes. -/
theorem tokens_escape (w : JavaString) :
    Tokens (escape (some w)) (narrowed w) := by
  induction w with
  | nil => exact .nil
  | cons c w ih => exact tokens_escapeChar c ih

theorem mem_escape {w : JavaString} {d : UInt16}
    (mem : d ∈ escape (some w)) :
    d = char '%' ∨ d = char '+' ∨ isEscaped d = false := by
  obtain ⟨c, -, mem⟩ := List.mem_flatMap.mp mem
  unfold escapeChar at mem
  split_ifs at mem with escaped
  · rcases List.mem_cons.mp mem with rfl | mem
    · exact .inl rfl
    · rcases List.mem_cons.mp mem with rfl | mem
      · exact .inr (.inr (isEscaped_toHex _))
      · obtain rfl := List.mem_singleton.mp mem
        exact .inr (.inr (isEscaped_toHex _))
  · obtain rfl := List.mem_singleton.mp mem
    exact .inr (.inl rfl)
  · obtain rfl := List.mem_singleton.mp mem
    exact .inr (.inr (by simpa using escaped))

/-- No delimiter but a slash is ever written. -/
theorem not_mem_escape {d : UInt16} (delimiter : d ∈ text ":#?;@&=")
    (w : JavaString) : d ∉ escape (some w) := by
  have delimiters : ∀ d ∈ text ":#?;@&=",
      ¬ (d = char '%' ∨ d = char '+' ∨ isEscaped d = false) :=
    forall_mem_of_all (by decide)
  exact fun mem => delimiters d delimiter (mem_escape mem)

/-- What is written for a character that is no slash begins with something
else. -/
theorem escapeChar_of_ne {c : UInt16} (other : c ≠ char '/') :
    char '/' ∉ escapeChar c ∧ escapeChar c ≠ [] := by
  have digit : ∀ i : Fin 16, char '/' ≠ toHex i := by decide
  unfold escapeChar
  split_ifs with escaped blank
  · refine ⟨?_, List.cons_ne_nil _ _⟩
    have percent : char '/' ≠ char '%' := by decide
    simp [digit, percent]
  · exact ⟨by decide, List.cons_ne_nil _ _⟩
  · exact ⟨by simpa using Ne.symm other, List.cons_ne_nil _ _⟩

theorem escapeChar_slash : escapeChar (char '/') = [char '/'] := by
  decide

theorem slash_mem_escape {w : JavaString} :
    char '/' ∈ escape (some w) ↔ char '/' ∈ w := by
  induction w with
  | nil => exact Iff.rfl
  | cons c w ih =>
      change char '/' ∈ escapeChar c ++ escape (some w) ↔ _
      rw [List.mem_append, List.mem_cons, ih]
      refine or_congr_left' fun _ => ?_
      by_cases slash : c = char '/'
      · subst slash
        exact iff_of_true (by decide) rfl
      · exact iff_of_false (escapeChar_of_ne slash).1 (Ne.symm slash)

theorem escape_eq_nil_iff {w : JavaString} :
    escape (some w) = [] ↔ w = [] := by
  cases w with
  | nil => exact iff_of_true rfl rfl
  | cons c w =>
      refine iff_of_false (fun nil => ?_) (List.cons_ne_nil c w)
      have first := (List.append_eq_nil_iff.mp nil).1
      by_cases slash : c = char '/'
      · rw [slash, escapeChar_slash] at first
        exact nomatch first
      · exact (escapeChar_of_ne slash).2 first

/-- A slash comes first if and only if it did before. -/
theorem escape_eq_slash_cons {w s : JavaString}
    (begins : escape (some w) = char '/' :: s) :
    ∃ w', w = char '/' :: w' ∧ s = escape (some w') := by
  cases w with
  | nil => exact nomatch begins
  | cons c w =>
      change escapeChar c ++ escape (some w) = _ at begins
      by_cases slash : c = char '/'
      · subst slash
        exact ⟨w, rfl, (List.cons.inj begins).2.symm⟩
      · obtain ⟨free, nonempty⟩ := escapeChar_of_ne slash
        obtain ⟨first, rest, same⟩ := List.exists_cons_of_ne_nil nonempty
        rw [same] at begins free
        rw [(List.cons.inj begins).1] at free
        exact absurd List.mem_cons_self free

theorem escape_begins_iff {w : JavaString} :
    (text "//").isPrefixOf (escape (some w)) = true ↔
      (text "//").isPrefixOf w = true := by
  have slashes : text "//" = [char '/', char '/'] := by decide
  rw [List.isPrefixOf_iff_prefix, List.isPrefixOf_iff_prefix, slashes]
  constructor
  · rintro ⟨s, begins⟩
    obtain ⟨w', rfl, begins'⟩ := escape_eq_slash_cons begins.symm
    obtain ⟨w'', rfl, -⟩ := escape_eq_slash_cons begins'.symm
    exact ⟨w'', rfl⟩
  · rintro ⟨w', rfl⟩
    exact ⟨escape (some w'), rfl⟩

end Etch.Java.Url
