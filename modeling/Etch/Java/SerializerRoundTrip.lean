import Etch.Java.LengthBudget
import Etch.Java.WriteCollections

/-!
# Collections through the wire and back

A collection that is written comes back as an equal one if no two keys of a set
or a map in it become one, and no `Integer` of a `StrIntHashMap` becomes a
`Short` or a `Byte`: only then.
-/

namespace Etch.Java

open Etch.Library.Stateful BinaryTaggedData
open BinaryTaggedDataOutput BinaryTaggedDataInput

namespace StandardFactory

variable {S : Type} (factory : StandardFactory S)

/-- A value has been read that is equal to this one. -/
def Returns (value : Value) : EStateM.Result Thrown (Input S) Value → Prop
  | .ok value' _ => factory.Alike value value'
  | .error _ _ => False

/-- A value is written while there is room, and comes back as an equal value
if it is faithful, and only then. -/
structure ComesBack (named : Bool) (v : Option Validator) (value : Value)
    (depth : Nat) (out : Output S) : Prop where
  throws : ∀ thrown after,
    writeValue factory.vf named depth v value out = .error thrown after →
      Exhausted thrown
  returns : ∀ after,
    writeValue factory.vf named depth v value out = .ok () after →
      ∃ (bytes : List UInt8) (declared : Nat),
        after.buf.contents = out.buf.contents ++ bytes ∧
          ∀ rest (budget : Int) before input size noneOk, 0 ≤ budget →
            bytes.length ≤ size →
            Stands (bytes ++ rest) (declared + budget) before input →
              (factory.Returns value
                  (readValue factory.vf size v noneOk input) ↔
                factory.Faithful value)

/-- Of the bytes of a collection, the reader makes what comes back of it. -/
theorem returns_iff {named : Bool} {kind : Kind} {clss : String}
    {state : List Value} (is : factory.kindOf clss = some kind)
    (serializable : factory.Serializable (.custom clss state))
    {v : Option Validator}
    (takes : ∀ state,
      validateValue factory.vf v (.custom kind.className state) =
        .ok (.custom kind.className state))
    {item : Item}
    (written : Written factory.vf named v (.custom clss state) item)
    {size : Nat} (fits : item.encode.length ≤ size)
    {rest : List UInt8} {budget : Int} {before : S} {input : Input S}
    (nonneg : 0 ≤ budget) (stands : Stands (item.encode ++ rest)
      (item.declared + budget) before input) (noneOk : Bool) :
    factory.Returns (.custom clss state)
        (readValue factory.vf size v noneOk input) ↔
      factory.Faithful (.custom clss state) := by
  have ⟨⟨kind', is', shaped⟩, inside⟩ := serializable
  obtain rfl := Option.some.inj (is.symm.trans is')
  have yields := factory.yields_custom is shaped
    (fun items written => factory.yieldsAll_of_written inside written) written
  have whole : (do
      let value ← factory.back (.custom clss state)
      validateValue factory.vf v value) =
        factory.back (.custom clss state) := by
    rw [factory.back_custom is]
    simp only [takes]
    rw [← factory.back_custom is]
    cases factory.back (.custom clss state) <;> rfl
  rw [whole] at yields
  have read := follows_readValue factory.importsNoEnd size item yields.clean
    fits v noneOk rest budget before input nonneg stands
  rw [yields.read noneOk] at read
  rw [← factory.back_alike_iff serializable]
  cases back : factory.back (.custom clss state) with
  | error thrown =>
      rw [back] at read
      obtain ⟨after, threw, _⟩ := read
      rw [threw]
      exact ⟨False.elim, fun ⟨value, done, _⟩ => nomatch done⟩
  | ok value =>
      rw [back] at read
      obtain ⟨after, done, _⟩ := read
      rw [done]
      constructor
      · exact fun alike => ⟨value, rfl, alike⟩
      · rintro ⟨value', same, alike⟩
        obtain rfl := Except.ok.inj same
        exact alike

end StandardFactory

/-! ## A factory with all kinds -/

namespace StandardFactory

def kinds : List Kind :=
  [.list, .set, .map, .strIntHashMap, .strStrHashMap, .date]

def standardType : Kind → IdName
  | .list => FactorySetup.listType
  | .set => FactorySetup.setType
  | .map => FactorySetup.mapType
  | .strIntHashMap => .ofName (text "etch.tests.Test1.StrIntHashMap")
  | .strStrHashMap => .ofName (text "etch.tests.Test1.StrStrHashMap")
  | .date => FactorySetup.datetimeType

/-- The one field of the type of a kind. -/
def standardFields (kind : Kind) : LockedFields where
  fields :=
    { fields :=
        { byId := fun id =>
            if id = kind.field.id then some kind.field else none
          byName := fun name =>
            if name = kind.fieldName then some kind.field else none
          locked := true }
      validators := fun key =>
        if key = kind.field then some kind.validator else none
      locked := true }
  locked := rfl

/-- `equals` of two strings. -/
def stringEquals : Equality
  | .string s, .string s' => decide (s = s')
  | _, _ => false

def standardSetup : FactorySetup Unit where
  classes :=
    { isSuper := fun name other => decide ((name, other) ∈
        [("java.util.List", JavaClass.custom "java.util.ArrayList"),
          ("java.util.Set", .custom "java.util.HashSet"),
          ("java.util.Map", .custom "java.util.HashMap"),
          ("java.util.Map", .custom "StrIntHashMap"),
          ("java.util.Map", .custom "StrStrHashMap")])
      superTypes := fun _ => [] }
  level := .FULL
  charset := ⟨fun _ => [], fun _ => []⟩
  equals := stringEquals
  types :=
    { byId := fun id => (kinds.map standardType).find? (·.id = id)
      byName := fun name => (kinds.map standardType).find? (·.name = name)
      locked := true }
  fields type :=
    (kinds.find? (standardType · = type)).map standardFields
  componentType _ := none
  importExportHelper type :=
    (kinds.find? (standardType · = type)).map fun kind =>
      kind.helper stringEquals type
  class2type c :=
    if c = .custom "StrIntHashMap" then
      some (standardType .strIntHashMap)
    else if c = .custom "StrStrHashMap" then
      some (standardType .strStrHashMap)
    else if c = .custom "java.util.Date" then
      some (standardType .date)
    else
      none
  others := untyped

theorem find_standardType (kind : Kind) :
    kinds.find? (standardType · = standardType kind) = some kind := by
  cases kind <;> decide +kernel

/-- The factory of a service with both maps. -/
def standard : StandardFactory Unit :=
  { standardSetup with
    typeOf := standardType
    registered := fun kind =>
      { wellFormed := by cases kind <;> decide +kernel
        typeById := by cases kind <;> decide +kernel
        typeByName := by cases kind <;> decide +kernel
        fields := ⟨standardFields kind,
          congrArg (Option.map standardFields) (find_standardType kind),
          if_pos rfl, if_pos rfl, if_pos rfl⟩
        helper := congrArg (Option.map fun kind' => Kind.helper stringEquals
          (standardType kind) kind') (find_standardType kind) }
    kindOf := fun clss => kinds.find? (·.className = clss)
    exportedAs := by
      intro kind clss is
      have same : kind.className = clss := by
        have found := List.find?_some is
        exact of_decide_eq_true found
      subst same
      constructor
      · cases kind with
        | list => exact Or.inr ⟨by decide, fun _ => rfl, by decide +kernel⟩
        | set => exact Or.inr ⟨by decide, fun _ => rfl, by decide +kernel⟩
        | map => exact Or.inr ⟨by decide, fun _ => rfl, by decide +kernel⟩
        | _ => exact Or.inl (by decide +kernel)
      · cases kind <;> decide +kernel
      · cases kind <;> decide +kernel
    library := fun kind => by cases kind <;> decide +kernel }

/-! ## An integer that a map does not take back -/

/-- The map `{"a": 1}`. -/
def entry : Value :=
  .custom "StrIntHashMap" [.string (text "a"), .int 1]

/-- The buffer that is read after this one has been written. -/
def reread (buf : FlexBuffer) : Input Unit :=
  ⟨{ buf with index := 0, index_le := Nat.zero_le _ }, buf.length, (), []⟩

/-- Writing a value, and reading what has been written. -/
def writeAndRead (value : Value) : Option Thrown :=
  match writeValue standard.vf false 9 (some (.object 0)) value
      ⟨FlexBuffer.empty, ()⟩ with
  | .error thrown _ => some thrown
  | .ok _ after =>
      match readValue standard.vf after.buf.length (some (.object 0)) false
          (reread after.buf) with
      | .error thrown _ => some thrown
      | .ok _ _ => none

theorem serializable_entry : standard.Serializable entry :=
  ⟨⟨.strIntHashMap, by decide, [(.string (text "a"), .int 1)], rfl,
    fun entry mem => by
      obtain rfl := List.mem_singleton.mp mem
      exact ⟨rfl, rfl⟩⟩,
    (by decide : Utf8.WellFormed (text "a")), trivial, trivial⟩

end StandardFactory

end Etch.Java
