import Etch.Java.Validator

/-!
# The fields of a Java `Type`

A type finds its fields by id and by name, and the validator of a field by the
field itself.  `putValidator` looks for the id alone before it adds the field:
where another field has the id, the validator is put and the field is not.
-/

namespace Etch.Java

open Etch.Library.Fallible

/-- The part of a `Type` that knows its fields. -/
structure TypeFields where
  fields : IdNameMap Field
  validators : Field → Option Validator
  locked : Bool

namespace TypeFields

/-- A new type has no fields. -/
def new : TypeFields :=
  ⟨.empty, fun _ => none, false⟩

def getValidator (type : TypeFields) (key : Field) : Option Validator :=
  type.validators key

def checkNotLocked (type : TypeFields) : Except Thrown Unit :=
  if type.locked then .error (.illegalStateException (text "locked"))
  else .ok ()

/-- `addField(field)`, with the field it returns. -/
def addField (type : TypeFields) (field : Field) :
    Except Thrown (Field × TypeFields) := do
  let (field, fields) ← type.fields.add field
  return (field, { type with fields })

/-- `getField(Integer id)` -/
def getFieldById (type : TypeFields) (id : Int32) : Option Field :=
  type.fields.getById id

/-- `getField(String name)`, which adds a field unless the type is locked. -/
def getFieldByName (type : TypeFields) (name : JavaString) :
    Except Thrown (Option Field × TypeFields) := do
  let (field, fields) ← type.fields.getByName IdName.ofName name
  return (field, { type with fields })

/-- The validator of a key once another one has been put. -/
def chained (type : TypeFields) (key : Field) (vldtr : Validator) :
    Validator :=
  match type.validators key with
  | some v => .combo v vldtr
  | none => vldtr

def putValidator (type : TypeFields) (key : Field)
    (vldtr : Option Validator) : Except Thrown TypeFields := do
  type.checkNotLocked
  match vldtr with
  | none => return type
  | some vldtr =>
      let type ←
        if (type.fields.getById key.id).isNone then
          Prod.snd <$> type.addField key
        else
          pure type
      return { type with
        validators := Function.update type.validators key
          (some (type.chained key vldtr)) }

def clearValidator (type : TypeFields) (key : Field) :
    Except Thrown TypeFields := do
  type.checkNotLocked
  return { type with validators := Function.update type.validators key none }

def lock (type : TypeFields) : TypeFields :=
  { type with locked := true, fields := type.fields.lock }

/-- The calls that look at the fields of a type or change them. -/
inductive Call where
  | putValidator (key : Field) (vldtr : Option Validator)
  | addField (field : Field)
  | getFieldById (id : Int32)
  | getFieldByName (name : JavaString)
  | clearValidator (key : Field)
  | lock

/-- The type after a call that has not thrown. -/
def after (type : TypeFields) : Call → Except Thrown TypeFields
  | .putValidator key vldtr => type.putValidator key vldtr
  | .addField field => Prod.snd <$> type.addField field
  | .getFieldById _ => .ok type
  | .getFieldByName name => Prod.snd <$> type.getFieldByName name
  | .clearValidator key => type.clearValidator key
  | .lock => .ok type.lock

/-- A sequence of calls, up to the first one that throws. -/
def run (type : TypeFields) : List Call → Except Thrown TypeFields
  | [] => .ok type
  | call :: calls => do
      let next ← type.after call
      next.run calls

/-- A property of the states of a type along a sequence of calls. -/
def Along (property : TypeFields → Prop) : TypeFields → List Call → Prop
  | type, [] => property type
  | type, call :: calls => property type ∧
      ∀ next, type.after call = .ok next → Along property next calls

/-! ## Resolution -/

/-- Each field with a validator is found by its id and by its name. -/
def Resolves (type : TypeFields) : Prop :=
  ∀ field, (type.getValidator field).isSome →
    type.getFieldById field.id = some field ∧
      (Prod.fst <$> type.getFieldByName field.name) = .ok (some field)

/-- A call that puts no validator for a field whose id another field has. -/
def Sound (type : TypeFields) : Call → Prop
  | .putValidator key (some _) =>
      ∀ field, type.getFieldById key.id = some field → field = key
  | _ => True

/-- What a type needs to find its fields. -/
structure Invariant (type : TypeFields) : Prop where
  consistent : type.fields.Consistent
  present : ∀ field, (type.getValidator field).isSome →
    type.getFieldById field.id = some field

theorem invariant_new : Invariant new :=
  ⟨IdNameMap.consistent_empty, nofun⟩

theorem Invariant.resolves {type : TypeFields} (holds : Invariant type) :
    type.Resolves := by
  intro field validated
  have byId := holds.present field validated
  refine ⟨byId, ?_⟩
  have byName : type.fields.byName field.name = some field :=
    (holds.consistent.ofId _ _ byId).2
  rw [getFieldByName, IdNameMap.getByName, byName]
  rfl

section Calls

variable {type next : TypeFields}

/-- What `addField` leaves. -/
theorem addField_ok {field added : Field}
    (does : type.addField field = .ok (added, next)) :
    ∃ fields, type.fields.add field = .ok (added, fields) ∧
      next = { type with fields } := by
  obtain ⟨⟨added', fields⟩, add, returned⟩ := bind_eq_ok_iff.mp does
  obtain ⟨rfl, rfl⟩ := Prod.mk.inj (Except.ok.inj returned)
  exact ⟨fields, add, rfl⟩

theorem map_snd_ok {α β : Type} {result : Except Thrown (α × β)} {next : β}
    (does : Prod.snd <$> result = .ok next) :
    ∃ first, result = .ok (first, next) := by
  cases result with
  | error thrown => exact nomatch does
  | ok pair =>
      obtain ⟨first, second⟩ := pair
      obtain rfl := Except.ok.inj does
      exact ⟨first, rfl⟩

/-- More fields do not unsettle the ones there are. -/
theorem Invariant.grow {fields : IdNameMap Field} (holds : Invariant type)
    (consistent : fields.Consistent) (grows : type.fields.Grows fields) :
    Invariant { type with fields } where
  consistent := consistent
  present := fun field validated =>
    grows.byId _ _ (holds.present field validated)

theorem Invariant.addField {field added : Field} (holds : Invariant type)
    (does : type.addField field = .ok (added, next)) : Invariant next := by
  obtain ⟨fields, add, rfl⟩ := addField_ok does
  exact holds.grow (holds.consistent.add add) (IdNameMap.grows_add add)

/-- What `putValidator` has done with a validator that is not null. -/
theorem putValidator_ok {key : Field} {vldtr : Validator}
    (does : type.putValidator key (some vldtr) = .ok next) :
    (∃ field, type.getFieldById key.id = some field ∧
      next = { type with
        validators := Function.update type.validators key
          (some (type.chained key vldtr)) }) ∨
    (type.getFieldById key.id = none ∧
      ∃ fields, type.fields.add key = .ok (key, fields) ∧
        next = { type with
          fields
          validators := Function.update type.validators key
            (some (type.chained key vldtr)) }) := by
  obtain ⟨_, _, rest⟩ := bind_eq_ok_iff.mp does
  cases found : type.fields.getById key.id with
  | some field =>
      rw [found] at rest
      exact Or.inl ⟨field, found, (Except.ok.inj rest).symm⟩
  | none =>
      rw [found] at rest
      obtain ⟨middle, added, returned⟩ := bind_eq_ok_iff.mp rest
      obtain ⟨first, add⟩ := map_snd_ok added
      obtain ⟨fields, add', rfl⟩ := addField_ok add
      obtain ⟨_, _, _, rfl, _⟩ := IdNameMap.add_ok add'
      exact Or.inr ⟨found, fields, add', (Except.ok.inj returned).symm⟩

/-- The validators that have been put belong to fields that are there. -/
theorem Invariant.validated {key : Field} {v : Validator}
    (holds : Invariant type)
    (present : type.getFieldById key.id = some key) :
    Invariant { type with
      validators := Function.update type.validators key (some v) } where
  consistent := holds.consistent
  present := by
    intro field validated
    by_cases same : field = key
    · rw [same]
      exact present
    · apply holds.present
      unfold getValidator at validated ⊢
      dsimp only at validated
      rwa [Function.update_of_ne same] at validated

theorem Invariant.putValidator {key : Field} {vldtr : Validator}
    (holds : Invariant type)
    (sound : type.Sound (.putValidator key (some vldtr)))
    (does : type.putValidator key (some vldtr) = .ok next) :
    Invariant next := by
  rcases putValidator_ok does with
    ⟨field, found, rfl⟩ | ⟨_, fields, add, rfl⟩
  · obtain rfl := sound field found
    exact holds.validated found
  · have grown : Invariant { type with fields } :=
      holds.grow (holds.consistent.add add) (IdNameMap.grows_add add)
    exact grown.validated (IdNameMap.found_of_add add).1

/-- A validator put for a field whose id another field has is not found. -/
theorem putValidator_unresolved {key : Field} {vldtr : Validator}
    (unsound : ¬ type.Sound (.putValidator key (some vldtr)))
    (does : type.putValidator key (some vldtr) = .ok next) :
    ¬ next.Resolves := by
  unfold Sound at unsound
  push Not at unsound
  obtain ⟨other, found, different⟩ := unsound
  rcases putValidator_ok does with
    ⟨field, _, rfl⟩ | ⟨missing, _⟩
  · intro resolves
    have validated : (Function.update type.validators key
        (some (type.chained key vldtr)) key).isSome = true := by
      rw [Function.update_self]
      rfl
    have byId := (resolves key validated).1
    exact different (Option.some.inj (found.symm.trans byId))
  · exact nomatch found.symm.trans missing

/-- Every call keeps the invariant, where it is sound. -/
theorem Invariant.after {call : Call} (holds : Invariant type)
    (sound : type.Sound call) (does : type.after call = .ok next) :
    Invariant next := by
  cases call with
  | putValidator key vldtr =>
      cases vldtr with
      | none =>
          obtain ⟨_, _, returned⟩ := bind_eq_ok_iff.mp does
          obtain rfl := Except.ok.inj returned
          exact holds
      | some vldtr => exact holds.putValidator sound does
  | addField field =>
      obtain ⟨added, does'⟩ := map_snd_ok does
      exact holds.addField does'
  | getFieldById id =>
      obtain rfl := Except.ok.inj does
      exact holds
  | getFieldByName name =>
      obtain ⟨result, does'⟩ := map_snd_ok does
      obtain ⟨⟨result', fields⟩, get, returned⟩ := bind_eq_ok_iff.mp does'
      obtain ⟨rfl, rfl⟩ := Prod.mk.inj (Except.ok.inj returned)
      rcases IdNameMap.getByName_cases get with
        ⟨_, rfl, _⟩ | ⟨_, _, _, add⟩
      · exact holds
      · exact holds.grow (holds.consistent.add add) (IdNameMap.grows_add add)
  | clearValidator key =>
      obtain ⟨_, _, returned⟩ := bind_eq_ok_iff.mp does
      obtain rfl := Except.ok.inj returned
      refine ⟨holds.consistent, ?_⟩
      intro field validated
      by_cases same : field = key
      · unfold getValidator at validated
        dsimp only at validated
        rw [same, Function.update_self] at validated
        exact nomatch validated
      · apply holds.present
        unfold getValidator at validated ⊢
        dsimp only at validated
        rwa [Function.update_of_ne same] at validated
  | lock =>
      obtain rfl := Except.ok.inj does
      exact ⟨holds.consistent.lock, holds.present⟩

/-- A call that is not sound leaves a field that is not found. -/
theorem unresolved_after {call : Call} (unsound : ¬ type.Sound call)
    (does : type.after call = .ok next) : ¬ next.Resolves := by
  cases call with
  | putValidator key vldtr =>
      cases vldtr with
      | none => exact absurd trivial unsound
      | some vldtr => exact putValidator_unresolved unsound does
  | addField field => exact absurd trivial unsound
  | getFieldById id => exact absurd trivial unsound
  | getFieldByName name => exact absurd trivial unsound
  | clearValidator key => exact absurd trivial unsound
  | lock => exact absurd trivial unsound

end Calls

/-! ## Sequences of calls -/

/-- Each call of a sequence is sound where it is made. -/
def SoundAlong : TypeFields → List Call → Prop
  | _, [] => True
  | type, call :: calls => type.Sound call ∧
      ∀ next, type.after call = .ok next → SoundAlong next calls

theorem Along.first {property : TypeFields → Prop} {type : TypeFields}
    {calls : List Call} (along : Along property type calls) :
    property type := by
  cases calls with
  | nil => exact along
  | cons call calls => exact along.1

theorem Invariant.along_iff {type final : TypeFields}
    {calls : List Call} (holds : Invariant type)
    (runs : type.run calls = .ok final) :
    Along Resolves type calls ↔ SoundAlong type calls := by
  induction calls generalizing type with
  | nil => exact ⟨fun _ => trivial, fun _ => holds.resolves⟩
  | cons call calls ih =>
      obtain ⟨next, does, runs'⟩ := bind_eq_ok_iff.mp runs
      constructor
      · rintro ⟨_, later⟩
        have sound : type.Sound call := by
          by_contra unsound
          exact unresolved_after unsound does (later next does).first
        refine ⟨sound, ?_⟩
        intro next' does'
        obtain rfl := Except.ok.inj (does.symm.trans does')
        exact (ih (holds.after sound does) runs').mp (later _ does)
      · rintro ⟨sound, later⟩
        refine ⟨holds.resolves, ?_⟩
        intro next' does'
        obtain rfl := Except.ok.inj (does.symm.trans does')
        exact (ih (holds.after sound does) runs').mpr (later _ does)

/--
In a sequence of calls that does not throw every field with a validator is
found at all times, exactly if no validator is put for a field whose id
another field has.
-/
theorem resolves_along_iff {calls : List Call} {final : TypeFields}
    (runs : new.run calls = .ok final) :
    Along Resolves new calls ↔ SoundAlong new calls :=
  invariant_new.along_iff runs

/-- A type with one field. -/
def single (field : Field) (v : Validator) : TypeFields where
  fields :=
    ⟨Function.update (fun _ => none) field.id (some field),
      Function.update (fun _ => none) field.name (some field), false⟩
  validators := Function.update (fun _ => none) field (some v)
  locked := false

/-- Validators for two fields of one id: the second field is not added. -/
theorem run_colliding {first second : Field} (same : second.id = first.id)
    (v w : Validator) :
    ∃ final, new.run [.putValidator first (some v),
        .putValidator second (some w)] = .ok final ∧
      (final.getValidator second).isSome ∧
      final.getFieldById second.id = some first := by
  have added : new.after (.putValidator first (some v)) =
      .ok (single first v) := rfl
  have found : (single first v).fields.getById second.id = some first := by
    simp [single, IdNameMap.getById, same]
  refine ⟨{ single first v with
    validators := Function.update (single first v).validators second
      (some ((single first v).chained second w)) }, ?_, ?_, found⟩
  · rw [run, added, ok_bind, run, after, putValidator, found]
    rfl
  · simp [getValidator]

/-- Two names with one hash. -/
def ayjrqx : Field := IdName.ofName (text "ayjrqx")

def zjipxh : Field := IdName.ofName (text "zjipxh")

theorem id_zjipxh : zjipxh.id = ayjrqx.id := by decide +kernel

theorem ayjrqx_ne_zjipxh : ayjrqx ≠ zjipxh := by decide +kernel

theorem resolves_along_iff_colliding :
    Along Resolves new
        [.putValidator ayjrqx (some (.string 0)),
          .putValidator zjipxh (some (.string 0))] ↔
      SoundAlong new
        [.putValidator ayjrqx (some (.string 0)),
          .putValidator zjipxh (some (.string 0))] :=
  have ⟨_, runs, _⟩ := run_colliding id_zjipxh (.string 0) (.string 0)
  resolves_along_iff runs

/-- The second of two fields with one hash is validated and not found. -/
theorem putValidator_colliding :
    ∃ final, new.run
        [.putValidator ayjrqx (some (.string 0)),
          .putValidator zjipxh (some (.string 0))] = .ok final ∧
      ¬ final.Resolves := by
  obtain ⟨final, runs, validated, found⟩ :=
    run_colliding id_zjipxh (.string 0) (.string 0)
  refine ⟨final, runs, ?_⟩
  intro resolves
  have itself := (resolves zjipxh validated).1
  exact ayjrqx_ne_zjipxh (Option.some.inj (found.symm.trans itself))

end TypeFields

end Etch.Java
