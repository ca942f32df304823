import Etch.Java.BinaryTaggedDataInput

/-!
# The binary tagged data format

The encoding of a message, apart from the code that writes and reads it.  An
item has its declared length in front, and ends at a code of its own: a reader
that stops early is still between two items.
-/

namespace Etch.Java

open FlexBuffer

/-- An item without items in it. -/
inductive Scalar where
  | null
  | none
  | boolean (value : Bool)
  | integer (value : Int64)
  | float (bits : UInt32)
  | double (bits : UInt64)
  | emptyString
  | string (contents : List UInt8)
  | binary (contents : List UInt8)
deriving DecidableEq

/-- What the elements of an array are, without its dimensions. -/
inductive ElementType where
  | native (code : Int8)
      (isNative : code ≠ TypeCode.CUSTOM ∧ code ≠ TypeCode.STRUCT)
  | custom (type : Scalar)

/-- What is written for a value.  Types and fields are integers or strings. -/
inductive Item where
  | scalar (scalar : Scalar)
  | array (element : ElementType) (dim : Int32) (elements : List Item)
  | struct (type : Scalar) (fields : List (Scalar × Item))

namespace Scalar

/-- An integer as it is written, at the least width. -/
def integerBytes (number : Int) : List UInt8 :=
  if -64 ≤ number ∧ number ≤ 127 then
    numberBytes 1 number
  else if -128 ≤ number ∧ number ≤ 127 then
    TypeCode.BYTE.toUInt8 :: numberBytes 1 number
  else if -32768 ≤ number ∧ number ≤ 32767 then
    TypeCode.SHORT.toUInt8 :: numberBytes 2 number
  else if -2147483648 ≤ number ∧ number ≤ 2147483647 then
    TypeCode.INT.toUInt8 :: numberBytes 4 number
  else
    TypeCode.LONG.toUInt8 :: numberBytes 8 number

/-- A length as it is written. -/
def lengthBytes (length : Nat) : List UInt8 :=
  integerBytes (Int32.ofNat length).toInt

def encode : Scalar → List UInt8
  | null => [TypeCode.NULL.toUInt8]
  | none => [TypeCode.NONE.toUInt8]
  | boolean false => [TypeCode.BOOLEAN_FALSE.toUInt8]
  | boolean true => [TypeCode.BOOLEAN_TRUE.toUInt8]
  | integer value => integerBytes value.toInt
  | float bits => TypeCode.FLOAT.toUInt8 :: numberBytes 4 bits.toNat
  | double bits => TypeCode.DOUBLE.toUInt8 :: numberBytes 8 bits.toNat
  | emptyString => [TypeCode.EMPTY_STRING.toUInt8]
  | string contents =>
      TypeCode.STRING.toUInt8 :: (lengthBytes contents.length ++ contents)
  | binary contents =>
      TypeCode.BYTES.toUInt8 :: (lengthBytes contents.length ++ contents)

/-- The length that is declared. -/
def declared : Scalar → Nat
  | string contents => contents.length
  | binary contents => contents.length
  | _ => 0

/-- The encoding of an `int` is that of a scalar. -/
theorem encode_int (n : Int32) :
    (integer n.toInt64).encode = integerBytes n.toInt := by
  rw [encode, Int32.toInt_toInt64]

theorem encode_length (length : Nat) :
    (integer (Int32.ofNat length).toInt64).encode = lengthBytes length :=
  encode_int _

theorem one_le_length_integerBytes (number : Int) :
    1 ≤ (integerBytes number).length := by
  unfold integerBytes
  split_ifs <;> simp

theorem declared_lt_encode (scalar : Scalar) :
    scalar.declared + 1 ≤ scalar.encode.length := by
  cases scalar with
  | boolean value => cases value <;> exact Nat.le_refl 1
  | integer value => exact one_le_length_integerBytes _
  | string contents =>
      simp only [declared, encode, List.length_cons, List.length_append]
      omega
  | binary contents =>
      simp only [declared, encode, List.length_cons, List.length_append]
      omega
  | _ => simp [declared, encode]

end Scalar

namespace ElementType

def encode : ElementType → List UInt8
  | native code _ => [code.toUInt8]
  | custom type => TypeCode.CUSTOM.toUInt8 :: type.encode

/-- The length that is declared. -/
def declared : ElementType → Nat
  | native _ _ => 0
  | custom type => type.declared

theorem declared_lt_encode (element : ElementType) :
    element.declared + 1 ≤ element.encode.length := by
  cases element with
  | native code isNative => exact Nat.le_refl 1
  | custom type =>
      have typed := type.declared_lt_encode
      simp only [declared, encode, List.length_cons]
      omega

end ElementType

namespace Item

mutual

def encode : Item → List UInt8
  | scalar s => s.encode
  | array element dim elements =>
      TypeCode.ARRAY.toUInt8 ::
        (element.encode ++
          (Scalar.integerBytes dim.toInt ++
            (Scalar.lengthBytes elements.length ++
              (encodeAll elements ++ Scalar.none.encode))))
  | struct type fields =>
      TypeCode.CUSTOM.toUInt8 ::
        (type.encode ++
          (Scalar.lengthBytes fields.length ++
            (encodeFields fields ++ Scalar.none.encode)))

def encodeAll : List Item → List UInt8
  | [] => []
  | item :: items => item.encode ++ encodeAll items

def encodeFields : List (Scalar × Item) → List UInt8
  | [] => []
  | (field, item) :: fields =>
      field.encode ++ (item.encode ++ encodeFields fields)

end

mutual

/-- The sum of the lengths that are declared. -/
def declared : Item → Nat
  | scalar s => s.declared
  | array element _ elements =>
      element.declared + (elements.length + declaredAll elements)
  | struct type fields =>
      type.declared + (fields.length + declaredFields fields)

def declaredAll : List Item → Nat
  | [] => 0
  | item :: items => item.declared + declaredAll items

def declaredFields : List (Scalar × Item) → Nat
  | [] => 0
  | (field, item) :: fields =>
      field.declared + (item.declared + declaredFields fields)

end

/-- The items of a struct, one after the other. -/
def flatten (fields : List (Scalar × Item)) : List Item :=
  fields.flatMap fun (field, item) => [scalar field, item]

theorem encodeAll_append (first second : List Item) :
    encodeAll (first ++ second) = encodeAll first ++ encodeAll second := by
  induction first with
  | nil => rfl
  | cons item items ih =>
      rw [List.cons_append, encodeAll, encodeAll, ih, List.append_assoc]

theorem declaredAll_append (first second : List Item) :
    declaredAll (first ++ second) =
      declaredAll first + declaredAll second := by
  induction first with
  | nil => exact (Nat.zero_add _).symm
  | cons item items ih =>
      rw [List.cons_append, declaredAll, declaredAll, ih, Nat.add_assoc]

theorem encodeAll_flatten (fields : List (Scalar × Item)) :
    encodeAll (flatten fields) = encodeFields fields := by
  induction fields with
  | nil => rfl
  | cons entry fields ih =>
      obtain ⟨field, item⟩ := entry
      change encodeAll (scalar field :: item :: flatten fields) = _
      rw [encodeAll, encodeAll, ih, encode, encodeFields]

theorem declaredAll_flatten (fields : List (Scalar × Item)) :
    declaredAll (flatten fields) = declaredFields fields := by
  induction fields with
  | nil => rfl
  | cons entry fields ih =>
      obtain ⟨field, item⟩ := entry
      change declaredAll (scalar field :: item :: flatten fields) = _
      rw [declaredAll, declaredAll, ih, declared, declaredFields]

/-! ## The items in an item -/

/-- After the type of an array, and its dimensions, come its elements. -/
theorem encodeAll_array (element : ElementType) (dim : Int32)
    (elements rest : List Item) :
    encodeAll (.array element dim elements :: rest) =
      TypeCode.ARRAY.toUInt8 :: (element.encode ++
        encodeAll (.scalar (.integer dim.toInt64) ::
          .scalar (.integer (Int32.ofNat elements.length).toInt64) ::
            (elements ++ .scalar .none :: rest))) := by
  simp only [encodeAll, encodeAll_append, encode, Scalar.encode_int,
    Scalar.lengthBytes, List.cons_append, List.append_assoc]

theorem declaredAll_array (element : ElementType) (dim : Int32)
    (elements rest : List Item) :
    declaredAll (.array element dim elements :: rest) =
      element.declared + (declaredAll (elements ++ .scalar .none :: rest) +
        elements.length) := by
  simp only [declaredAll, declaredAll_append, declared, Scalar.declared]
  omega

/-- After the type of a struct come its fields. -/
theorem encodeAll_struct (type : Scalar) (fields : List (Scalar × Item))
    (rest : List Item) :
    encodeAll (.struct type fields :: rest) =
      TypeCode.CUSTOM.toUInt8 :: encodeAll (.scalar type ::
        .scalar (.integer (Int32.ofNat fields.length).toInt64) ::
          (flatten fields ++ .scalar .none :: rest)) := by
  simp only [encodeAll, encodeAll_append, encodeAll_flatten, encode,
    Scalar.encode_int, Scalar.lengthBytes, List.cons_append,
    List.append_assoc]

theorem declaredAll_struct (type : Scalar) (fields : List (Scalar × Item))
    (rest : List Item) :
    declaredAll (.struct type fields :: rest) =
      declaredAll (.scalar type ::
        .scalar (.integer (Int32.ofNat fields.length).toInt64) ::
          (flatten fields ++ .scalar .none :: rest)) + fields.length := by
  simp only [declaredAll, declaredAll_append, declaredAll_flatten, declared,
    Scalar.declared]
  omega

theorem length_le_flatten (fields : List (Scalar × Item)) :
    fields.length ≤ (flatten fields).length := by
  induction fields with
  | nil => exact Nat.le_refl 0
  | cons entry fields ih =>
      change fields.length + 1 ≤ (flatten fields).length + 2
      omega

mutual

/-- Each item is a byte longer than the lengths declared in it. -/
theorem declared_lt_encode (item : Item) :
    item.declared + 1 ≤ item.encode.length := by
  cases item with
  | scalar s => exact s.declared_lt_encode
  | array element dim elements =>
      have inside := declaredAll_le_encodeAll elements
      have typed := element.declared_lt_encode
      simp only [declared, encode, List.length_cons, List.length_append]
      omega
  | struct type fields =>
      have inside := declaredFields_le_encodeFields fields
      have typed := type.declared_lt_encode
      simp only [declared, encode, List.length_cons, List.length_append]
      omega

/-- There is a byte for each item, besides the lengths declared in it. -/
theorem declaredAll_le_encodeAll (items : List Item) :
    items.length + declaredAll items ≤ (encodeAll items).length := by
  cases items with
  | nil => exact Nat.le_refl 0
  | cons item items =>
      have first := declared_lt_encode item
      have rest := declaredAll_le_encodeAll items
      simp only [declaredAll, encodeAll, List.length_cons,
        List.length_append]
      omega

theorem declaredFields_le_encodeFields (fields : List (Scalar × Item)) :
    fields.length + declaredFields fields ≤
      (encodeFields fields).length := by
  cases fields with
  | nil => exact Nat.le_refl 0
  | cons entry fields =>
      obtain ⟨field, item⟩ := entry
      have key := field.declared_lt_encode
      have first := declared_lt_encode item
      have rest := declaredFields_le_encodeFields fields
      simp only [declaredFields, encodeFields, List.length_cons,
        List.length_append]
      omega

end

end Item

/-- The bytes of a message. -/
def encodeMessage (type : Scalar) (fields : List (Scalar × Item)) :
    List UInt8 :=
  BinaryTaggedData.VERSION.toUInt8 ::
    (type.encode ++
      (Scalar.lengthBytes fields.length ++
        (Item.encodeFields fields ++ Scalar.none.encode)))

/-- The sum of all lengths that are declared in a message. -/
def declaredMessage (type : Scalar) (fields : List (Scalar × Item)) : Nat :=
  type.declared + (fields.length + Item.declaredFields fields)

/-- The items of a message, behind its version. -/
def messageItems (type : Scalar) (fields : List (Scalar × Item)) :
    List Item :=
  .scalar type :: .scalar (.integer (Int32.ofNat fields.length).toInt64) ::
    (Item.flatten fields ++ [.scalar .none])

theorem encodeMessage_eq (type : Scalar) (fields : List (Scalar × Item)) :
    encodeMessage type fields =
      BinaryTaggedData.VERSION.toUInt8 ::
        Item.encodeAll (messageItems type fields) := by
  simp only [encodeMessage, messageItems, Item.encodeAll,
    Item.encodeAll_append, Item.encodeAll_flatten, Item.encode,
    Scalar.encode_length, List.append_nil]

theorem declaredMessage_eq (type : Scalar) (fields : List (Scalar × Item)) :
    declaredMessage type fields =
      Item.declaredAll (messageItems type fields) + fields.length := by
  simp only [declaredMessage, messageItems, Item.declaredAll,
    Item.declaredAll_append, Item.declaredAll_flatten, Item.declared,
    Scalar.declared]
  omega

theorem declaredMessage_le (type : Scalar)
    (fields : List (Scalar × Item)) :
    declaredMessage type fields ≤ (encodeMessage type fields).length := by
  have typed := type.declared_lt_encode
  have inside := Item.declaredFields_le_encodeFields fields
  simp only [declaredMessage, encodeMessage, List.length_cons,
    List.length_append]
  omega

end Etch.Java
