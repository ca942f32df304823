import Etch.Java.Validator

/-!
# What `validate` and `validateValue` say of one another

`validate` and `validateValue` are written apart in each validator.  Whatever
the validator is, the one accepts what the other converts; an object is
converted to itself or to the same number in another width, and what comes
out of a validator comes out of it unchanged a second time.
-/

namespace Etch.Java

/-- Two objects that are one, or integers of one number. -/
inductive Value.Same : Value → Value → Prop where
  | refl (value : Value) : Same value value
  | integer {value other : Value} {number : Int}
      (is : value.integer? = some number)
      (is' : other.integer? = some number) : Same value other

namespace Validator

/-- The validator hands on what it accepts. -/
def HandsOn (v : Validator) : Prop :=
  ∀ classes value, v.validateValue classes value =
    if v.validate classes value then .ok value else .error notAppropriate

/--
The two kinds of validators that do not hand on what they accept, and all the
others.
-/
@[elab_as_elim]
theorem conversions {motive : Validator → Prop}
    (number : ∀ width, motive (.integer width 0))
    (combo : ∀ a b, motive a → motive b → motive (.combo a b))
    (handsOn : ∀ v, HandsOn v → motive v) (v : Validator) : motive v := by
  induction v with
  | combo a b ihA ihB => exact combo a b ihA ihB
  | integer width nDims =>
      cases nDims with
      | zero => exact number width
      | succ nDims =>
          apply handsOn
          intro classes value
          rw [validateValue]
          · exact nofun
          · exact nofun
  | _ =>
      apply handsOn
      intro classes value
      rw [validateValue]
      · exact nofun
      · exact nofun

variable {classes : Classes}

/-! ## Integers -/

theorem validate_number {width : Width} {value : Value} :
    (integer width 0).validate classes value = true ↔
      ∃ number, value.integer? = some number ∧ width.InRange number := by
  rw [validate]
  cases is : value.integer? with
  | none =>
      constructor
      · exact nofun
      · rintro ⟨number, is', _⟩
        exact nomatch is'
  | some number =>
      constructor
      · intro accepted
        exact ⟨number, rfl, of_decide_eq_true accepted⟩
      · rintro ⟨number', is', inside⟩
        obtain rfl := Option.some.inj is'
        exact decide_eq_true inside

theorem validateValue_number {width : Width} {value result : Value} :
    (integer width 0).validateValue classes value = .ok result ↔
      ∃ number, value.integer? = some number ∧ width.InRange number ∧
        result = width.value number := by
  rw [validateValue]
  constructor
  · intro converted
    split_ifs at converted with accepted
    obtain ⟨number, is, inside⟩ := validate_number.mp accepted
    rw [is] at converted
    exact ⟨number, is, inside, (Except.ok.inj converted).symm⟩
  · rintro ⟨number, is, inside, rfl⟩
    rw [if_pos (validate_number.mpr ⟨number, is, inside⟩), is]

/-! ## Acceptance -/

/-- Whatever is not accepted is refused with the one exception. -/
theorem validateValue_error {v : Validator} {value : Value} :
    v.validate classes value = false →
      v.validateValue classes value = .error notAppropriate := by
  induction v using conversions with
  | number width =>
      intro refused
      rw [validateValue, if_neg (Bool.eq_false_iff.mp refused)]
  | combo a b ihA ihB =>
      intro refused
      obtain ⟨refusedA, refusedB⟩ := Bool.or_eq_false_iff.mp refused
      rw [validateValue, ihA refusedA]
      exact ihB refusedB
  | handsOn v handsOn =>
      intro refused
      rw [handsOn, if_neg (Bool.eq_false_iff.mp refused)]

/-- Whatever is accepted is converted. -/
theorem validateValue_ok {v : Validator} {value : Value} :
    v.validate classes value = true →
      ∃ result, v.validateValue classes value = .ok result := by
  induction v using conversions with
  | number width =>
      intro accepted
      obtain ⟨number, is, inside⟩ := validate_number.mp accepted
      exact ⟨_, validateValue_number.mpr ⟨number, is, inside, rfl⟩⟩
  | combo a b ihA ihB =>
      intro accepted
      rw [validateValue]
      cases first : a.validate classes value with
      | true =>
          obtain ⟨result, converted⟩ := ihA first
          exact ⟨result, by rw [converted]⟩
      | false =>
          rw [validateValue_error first]
          rw [validate, first, Bool.false_or] at accepted
          exact ihB accepted
  | handsOn v handsOn =>
      intro accepted
      exact ⟨value, by rw [handsOn, if_pos accepted]⟩

theorem validate_iff {v : Validator} {value : Value} :
    v.validate classes value = true ↔
      ∃ result, v.validateValue classes value = .ok result := by
  constructor
  · exact validateValue_ok
  · rintro ⟨result, converted⟩
    by_contra refused
    rw [validateValue_error (Bool.eq_false_iff.mpr refused)] at converted
    exact nomatch converted

/-- The first part of a combo that accepts an object converts it. -/
theorem validateValue_combo_iff {a b : Validator} {value result : Value} :
    (combo a b).validateValue classes value = .ok result ↔
      a.validateValue classes value = .ok result ∨
        a.validate classes value = false ∧
          b.validateValue classes value = .ok result := by
  rw [validateValue]
  cases first : a.validate classes value with
  | true =>
      obtain ⟨result', converted⟩ := validateValue_ok first
      rw [converted]
      constructor
      · exact .inl
      · rintro (same | ⟨refused, _⟩)
        · exact same
        · exact nomatch refused
  | false =>
      rw [validateValue_error first]
      constructor
      · intro converted
        exact .inr ⟨rfl, converted⟩
      · rintro (impossible | ⟨_, converted⟩)
        · exact nomatch impossible
        · exact converted

/-! ## Results -/

theorem same_of_validateValue {v : Validator} {value result : Value} :
    v.validateValue classes value = .ok result → result.Same value := by
  induction v using conversions with
  | number width =>
      intro converted
      obtain ⟨number, is, inside, rfl⟩ := validateValue_number.mp converted
      exact .integer (Width.integer?_value inside) is
  | combo a b ihA ihB =>
      intro converted
      rcases validateValue_combo_iff.mp converted with first | ⟨_, second⟩
      · exact ihA first
      · exact ihB second
  | handsOn v handsOn =>
      intro converted
      rw [handsOn] at converted
      split_ifs at converted
      obtain rfl := Except.ok.inj converted
      exact .refl value

/--
A validator that refuses an object may accept the same number in another
width, but only by its class: it does not convert it then.
-/
theorem validateValue_of_refused {v : Validator}
    {value other result : Value} (same : other.Same value) :
    v.validate classes value = false →
      v.validateValue classes other = .ok result → result = other := by
  induction v using conversions with
  | number width =>
      intro refused converted
      obtain ⟨number, is, inside, _⟩ := validateValue_number.mp converted
      have accepted : (integer width 0).validate classes value = true := by
        cases same with
        | refl => exact validate_number.mpr ⟨number, is, inside⟩
        | integer is' is'' =>
            obtain rfl := Option.some.inj (is.symm.trans is')
            exact validate_number.mpr ⟨number, is'', inside⟩
      exact absurd accepted (Bool.eq_false_iff.mp refused)
  | combo a b ihA ihB =>
      intro refused converted
      obtain ⟨refusedA, refusedB⟩ := Bool.or_eq_false_iff.mp refused
      rcases validateValue_combo_iff.mp converted with first | ⟨_, second⟩
      · exact ihA refusedA first
      · exact ihB refusedB second
  | handsOn v handsOn =>
      intro _ converted
      rw [handsOn] at converted
      split_ifs at converted
      exact (Except.ok.inj converted).symm

/-- What a validator has converted it leaves as it is. -/
theorem validateValue_again {v : Validator} {value result : Value} :
    v.validateValue classes value = .ok result →
      v.validateValue classes result = .ok result := by
  induction v using conversions with
  | number width =>
      intro converted
      obtain ⟨number, is, inside, rfl⟩ := validateValue_number.mp converted
      exact validateValue_number.mpr
        ⟨number, Width.integer?_value inside, inside, rfl⟩
  | combo a b ihA ihB =>
      intro converted
      rcases validateValue_combo_iff.mp converted with
        first | ⟨refused, second⟩
      · exact validateValue_combo_iff.mpr (.inl (ihA first))
      · have same := same_of_validateValue second
        cases accepted : a.validate classes result with
        | true =>
            -- the first part takes the converted number for its class
            obtain ⟨result', converted'⟩ := validateValue_ok accepted
            obtain rfl := validateValue_of_refused same refused converted'
            exact validateValue_combo_iff.mpr (.inl converted')
        | false =>
            exact validateValue_combo_iff.mpr
              (.inr ⟨accepted, ihB second⟩)
  | handsOn v handsOn =>
      intro converted
      have accepted := validate_iff.mpr ⟨result, converted⟩
      rw [handsOn, if_pos accepted] at converted
      obtain rfl := Except.ok.inj converted
      rw [handsOn, if_pos accepted]

end Validator

end Etch.Java
