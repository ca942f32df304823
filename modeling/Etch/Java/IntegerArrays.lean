import Etch.Java.ItemReading

/-!
# Integers and arrays of them, read by Java

An integer is read as the number it is, at the width that its validator has,
and so is each element of an array.  No part of the factory is asked.
-/

namespace Etch.Java

open BinaryTaggedDataInput

/-- The type code of an array of integers. -/
def Width.code : Width → Int8
  | byte => TypeCode.BYTE
  | short => TypeCode.SHORT
  | int => TypeCode.INT
  | long => TypeCode.LONG

theorem Width.code_native (width : Width) :
    width.code ≠ TypeCode.CUSTOM ∧ width.code ≠ TypeCode.STRUCT := by
  cases width <;> decide

/-- The number as a scalar. -/
def integerOf (number : Int) : Scalar :=
  .integer (Int64.ofInt number)

def integerArray (width : Width) (numbers : List Int) : Item :=
  .array (.native width.code width.code_native) 1
    (numbers.map fun number => .scalar (integerOf number))

section Read

variable {S : Type} (vf : ValueFactory S)

theorem Width.InRange.toInt_ofInt {width : Width} {number : Int}
    (inside : width.InRange number) :
    (Int64.ofInt number).toInt = number := by
  obtain ⟨lower, upper⟩ := inside
  apply Int64.toInt_ofInt_of_le
  · cases width <;> simp only [Width.bits] at lower <;> omega
  · cases width <;> simp only [Width.bits] at upper <;> omega

theorem read_integerOf {width : Width} {number : Int}
    (inside : width.InRange number) (noneOk : Bool) :
    (integerOf number).read vf (some (.integer width 0)) noneOk =
      pure (width.value number) := by
  have is := integer?_narrowed (Int64.ofInt number)
  rw [inside.toInt_ofInt] at is
  rw [integerOf, readScalar_plain (by rintro ⟨⟩), Scalar.value,
    inside.toInt_ofInt, validateValue_integer is inside]
  rfl

/-- Every element is put at the width of the array. -/
theorem readElements_integers {width : Width} {numbers : List Int}
    (inside : ∀ number ∈ numbers, width.InRange number)
    (av : ArrayValue) (component : av.component = width.arrayClass) :
    readElements vf (some (.integer width 0))
        (numbers.map fun number => .scalar (integerOf number)) av =
      pure { av with
        elements := av.elements ++ numbers.map width.value } := by
  induction numbers generalizing av with
  | nil =>
      rw [List.map_nil, List.map_nil, List.append_nil]
      rfl
  | cons number numbers ih =>
      obtain ⟨first, rest⟩ := List.forall_mem_cons.mp inside
      have added : av.add vf.classes.isSuper (width.value number) =
          .ok { av with
            elements := av.elements ++ [width.value number] } := by
        rw [ArrayValue.add, component]
        cases width <;> rfl
      rw [List.map_cons, readElements, Item.read, read_integerOf vf first]
      change (returned (av.add vf.classes.isSuper (width.value number)) >>=
        _) = _
      rw [added]
      refine (ih rest { av with
        elements := av.elements ++ [width.value number] } component).trans ?_
      rw [List.append_assoc]
      rfl

theorem read_integerArray {width : Width} {numbers : List Int}
    (inside : ∀ number ∈ numbers, width.InRange number) (noneOk : Bool) :
    (integerArray width numbers).read vf (some (.integer width 1)) noneOk =
      pure (.array width.arrayClass (numbers.map width.value)) := by
  have array : newArray vf (.native width.code width.code_native) 1 =
      pure ⟨width.arrayClass, [], width.code, none, 1⟩ := by
    cases width <;> rfl
  have element : elementValidator (some (.integer width 1)) =
      (pure (some (.integer width 0)) : EStateM Thrown S _) := rfl
  rw [integerArray, Item.read, array, pure_bind, element, pure_bind,
    readElements_integers vf inside _ rfl, pure_bind]
  cases width <;> rfl

/-! ## From bytes -/

theorem length_le_encodeAll {item : Item} {items : List Item}
    (member : item ∈ items) :
    item.encode.length ≤ (Item.encodeAll items).length := by
  induction member with
  | head others =>
      rw [Item.encodeAll, List.length_append]
      exact Nat.le_add_right _ _
  | tail other _ ih =>
      rw [Item.encodeAll, List.length_append]
      exact Nat.le_add_left_of_le ih

theorem decodes_integerArray {width : Width} {numbers : List Int}
    (inside : ∀ number ∈ numbers, width.InRange number) {size : Nat}
    (fits : (integerArray width numbers).encode.length ≤ size)
    (noneOk : Bool) :
    Decodes (readValue vf size (some (.integer width 1)) noneOk)
      (integerArray width numbers).encode
      (integerArray width numbers).declared
      (pure (.array width.arrayClass (numbers.map width.value))) := by
  rw [← read_integerArray vf inside noneOk]
  refine .of_small fun small => ?_
  cases size with
  | zero => exact absurd fits (Nat.not_le_of_gt (Nat.succ_pos _))
  | succ size =>
      have follows : FollowsScalars vf size (readValue vf size) :=
        followsScalars_readValue size
      refine follows.body_array (fun ev item member => ?_) fits small
        (some (.integer width 1)) noneOk
      have shorter := length_le_encodeAll member
      rw [integerArray, Item.encode] at fits
      simp only [List.length_cons, List.length_append] at fits
      obtain ⟨number, -, rfl⟩ := List.mem_map.mp member
      rw [Item.encode] at shorter
      constructor
      · rw [Item.encode, Item.declared, Item.read]
        exact follows (integerOf number) (by omega) ev true
      · intro value before after done
        rw [Item.read] at done
        exact readScalar_ne_NONE (by rintro ⟨⟩) done

theorem decodes_integerOf {width : Width} {number : Int}
    (inside : width.InRange number) {size : Nat}
    (fits : (integerOf number).encode.length ≤ size) (noneOk : Bool) :
    Decodes (readValue vf size (some (.integer width 0)) noneOk)
      (integerOf number).encode 0 (pure (width.value number)) := by
  rw [← read_integerOf vf inside noneOk]
  exact followsScalars_readValue size (integerOf number) fits _ noneOk

end Read

end Etch.Java
