import Etch.Java.NarrowedValues

/-!
# Values that are equal up to the widths of integers

Two collections are equal if they have equal things in them: in order in a
list, in any order in a set or a map, whatever classes implement them.  A value
is equal to what comes back of it where it comes back whole, and only there.
-/

namespace Etch.Java

open BinaryTaggedData FloatingPoint

namespace StandardFactory

variable {S : Type} (factory : StandardFactory S)

/-- The class has the equality of another one. -/
def Is (clss : JavaClass) (name : String) : Prop :=
  clss.isAssignableFrom factory.classes.isSuper (.custom name) = true

mutual

/-- Values that are equal, where integers of all widths are compared. -/
inductive Alike : Value → Value → Prop where
  | same (value : Value) : Alike value value
  | integer {value value' : Value} {number : Int}
      (is : value.integer? = some number)
      (is' : value'.integer? = some number) : Alike value value'
  | array {component : JavaClass} {elements elements' : List Value}
      (inside : AlikeAll elements elements') :
      Alike (.array component elements) (.array component elements')
  | list {clss clss' : String} {state state' : List Value}
      (is : factory.Is .List clss) (is' : factory.Is .List clss')
      (inside : AlikeAll state state') :
      Alike (.custom clss state) (.custom clss' state')
  | set {clss clss' : String} {state state' ordered : List Value}
      (is : factory.Is .Set clss) (is' : factory.Is .Set clss')
      (inside : AlikeAll state ordered) (order : ordered.Perm state') :
      Alike (.custom clss state) (.custom clss' state')
  | map {clss clss' : String} {state : List Value}
      {entries ordered : List (Value × Value)}
      (is : factory.Is .Map clss) (is' : factory.Is .Map clss')
      (inside : AlikeAll state (unpair ordered))
      (order : ordered.Perm entries) :
      Alike (.custom clss state) (.custom clss' (unpair entries))
  | date {clss clss' : String} (state : List Value)
      (is : factory.Is (.custom "java.util.Date") clss)
      (is' : factory.Is (.custom "java.util.Date") clss') :
      Alike (.custom clss state) (.custom clss' state)

inductive AlikeAll : List Value → List Value → Prop where
  | nil : AlikeAll [] []
  | cons {value value' : Value} {values values' : List Value}
      (first : Alike value value') (rest : AlikeAll values values') :
      AlikeAll (value :: values) (value' :: values')

end

/-! ## Equal values have one weight -/

theorem weightAll_perm {values values' : List Value}
    (order : values.Perm values') : weightAll values = weightAll values' := by
  induction order with
  | nil => rfl
  | cons value rest ih => rw [weightAll, weightAll, ih]
  | swap first second rest =>
      rw [weightAll, weightAll, weightAll, weightAll]
      omega
  | trans first second ih ih' => exact ih.trans ih'

theorem weightAll_unpair_perm {entries entries' : List (Value × Value)}
    (order : entries.Perm entries') :
    weightAll (unpair entries) = weightAll (unpair entries') :=
  weightAll_perm (order.flatMap_right _)

theorem weight_integer {value : Value} {number : Int}
    (is : value.integer? = some number) : value.weight = 1 := by
  cases value with
  | array component elements => exact nomatch is
  | custom clss state => exact nomatch is
  | _ => rfl

mutual

theorem Alike.weight_eq {value value' : Value}
    (alike : factory.Alike value value') : value.weight = value'.weight := by
  cases alike with
  | same => rfl
  | integer is is' => rw [weight_integer is, weight_integer is']
  | array inside =>
      rw [Value.weight, Value.weight, AlikeAll.weight_eq inside]
  | list is is' inside =>
      rw [Value.weight, Value.weight, AlikeAll.weight_eq inside]
  | set is is' inside order =>
      rw [Value.weight, Value.weight, AlikeAll.weight_eq inside,
        weightAll_perm order]
  | map is is' inside order =>
      rw [Value.weight, Value.weight, AlikeAll.weight_eq inside,
        weightAll_unpair_perm order]
  | date state is is' => rw [Value.weight, Value.weight]

theorem AlikeAll.weight_eq {values values' : List Value}
    (alike : factory.AlikeAll values values') :
    weightAll values = weightAll values' := by
  cases alike with
  | nil => rfl
  | cons first rest =>
      rw [weightAll, weightAll, Alike.weight_eq first,
        AlikeAll.weight_eq rest]

end

/-! ## A value is equal to its narrowed one -/

theorem alike_narrowed {value : Value} {n : Int64}
    (is : value.integer? = some n.toInt) :
    factory.Alike value (narrowed n.toInt) :=
  .integer is (BinaryTaggedDataInput.integer?_narrowed n)

mutual

theorem alike_narrow {value : Value}
    (serializable : factory.Serializable value) :
    factory.Alike value (factory.narrow value) := by
  cases value with
  | byte n =>
      rw [narrow, ← n.toInt_toInt64]
      exact factory.alike_narrowed (congrArg some n.toInt_toInt64.symm)
  | short n =>
      rw [narrow, ← n.toInt_toInt64]
      exact factory.alike_narrowed (congrArg some n.toInt_toInt64.symm)
  | int n =>
      rw [narrow, ← n.toInt_toInt64]
      exact factory.alike_narrowed (congrArg some n.toInt_toInt64.symm)
  | long n => exact factory.alike_narrowed rfl
  | array component elements =>
      obtain ⟨native, dims, stores, inside⟩ := serializable
      rw [narrow]
      split_ifs
      · exact .same _
      · exact .array (alikeAll_narrow inside)
  | custom clss state =>
      obtain ⟨⟨kind, is, shaped⟩, inside⟩ := serializable
      have alike := alikeAll_narrow inside
      have equality : factory.Is kind.equalityClass clss :=
        (factory.exportedAs kind clss is).equality
      have equality' : factory.Is kind.equalityClass kind.className :=
        factory.library kind
      have map {entries : List (Value × Value)} (same : state = unpair entries)
          (is : factory.Is .Map clss)
          (is' : factory.Is .Map kind.className) : factory.Alike
            (.custom clss state)
            (.custom kind.className (factory.narrowAll state)) := by
        rw [same, factory.narrowAll_unpair] at alike ⊢
        exact .map is is' alike (.refl _)
      rw [narrow, is]
      dsimp only
      cases kind with
      | list => exact .list equality equality' alike
      | set => exact .set equality equality' alike (.refl _)
      | map =>
          obtain ⟨entries, same⟩ := shaped
          exact map same equality equality'
      | strIntHashMap =>
          obtain ⟨entries, same, casts⟩ := shaped
          exact map same equality equality'
      | strStrHashMap =>
          obtain ⟨entries, same, casts⟩ := shaped
          exact map same equality equality'
      | date => exact .date state equality equality'
  | NONE => exact serializable.elim
  | struct type fields => exact serializable.elim
  | _ => exact .same _

theorem alikeAll_narrow {values : List Value}
    (serializable : factory.SerializableAll values) :
    factory.AlikeAll values (factory.narrowAll values) := by
  cases values with
  | nil => exact .nil
  | cons value values =>
      exact .cons (alike_narrow serializable.1)
        (alikeAll_narrow serializable.2)

end

/-- What is faithful comes back as an equal value, and nothing else does. -/
theorem back_alike_iff {value : Value}
    (serializable : factory.Serializable value) :
    (∃ value', factory.back value = .ok value' ∧
      factory.Alike value value') ↔ factory.Faithful value := by
  constructor
  · rintro ⟨value', done, alike⟩
    exact (factory.weight_back serializable done).2 alike.weight_eq.symm
  · intro faithful
    exact ⟨factory.narrow value,
      factory.back_of_faithful serializable faithful,
      factory.alike_narrow serializable⟩

end StandardFactory

end Etch.Java
