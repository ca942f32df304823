import Etch.C.BinaryTaggedDataInput

/-!
# Encoded messages, and what they are to a C receiver

An id, a count or a length may be written at any width that it has room in.
A receiver knows some types, and some fields of these; to it an item has a
value in which the fields that it does not know are not there.
-/

namespace Etch.C.BinaryTdi

open Etch.Library.BigEndian

/-! ## Integers -/

/-- An integer of at most 32 bits as it is encoded. -/
inductive Integer where
  | tiny (value : Int8) (small : isTiny value = true)
  | byte (value : Int8)
  | short (value : Int16)
  | int (value : Int32)

namespace Integer

def encode : Integer → List UInt8
  | tiny value _ => [value.toUInt8]
  | byte value => [Typecode.BYTE.toUInt8, value.toUInt8]
  | short value => Typecode.SHORT.toUInt8 :: toBytes 2 value.toUInt16.toNat
  | int value => Typecode.INT.toUInt8 :: toBytes 4 value.toUInt32.toNat

def number : Integer → Int32
  | tiny value _ => value.toInt32
  | byte value => value.toInt32
  | short value => value.toInt32
  | int value => value

/-- The integer as an object of the width that it is encoded at. -/
def object {T F O : Type} : Integer → Value T F O
  | tiny value _ => .byte value
  | byte value => .byte value
  | short value => .int16 value
  | int value => .int32 value

theorem int32?_object {T F O : Type} (integer : Integer) :
    (integer.object : Value T F O).int32? = some integer.number := by
  cases integer <;> rfl

end Integer

/-! ## Items -/

/-- An encoded value. -/
inductive Item where
  | null
  | boolean (value : Bool)
  | integer (value : Integer)
  | long (value : Int64)
  | float (bits : UInt32)
  | double (bits : UInt64)
  | bytes (length : Integer) (contents : List UInt8)
  | emptyString
  | string (length : Integer) (contents : List UInt8)
  | array (code : Int8) (type : Option Integer) (dim length : Integer)
      (elements : List Item)
  | struct (custom : Bool) (type count : Integer)
      (fields : List (Integer × Item))

/-- What an array or a struct ends with. -/
def endCode : List UInt8 :=
  [Typecode.NONE.toUInt8]

/-- The codes of what an array may hold. -/
def contentCodes : List Int8 :=
  [Typecode.NULL, Typecode.BOOLEAN_FALSE, Typecode.BOOLEAN_TRUE,
    Typecode.BYTE, Typecode.SHORT, Typecode.INT, Typecode.LONG,
    Typecode.FLOAT, Typecode.DOUBLE, Typecode.BYTES, Typecode.ARRAY,
    Typecode.EMPTY_STRING, Typecode.STRING, Typecode.STRUCT,
    Typecode.CUSTOM, Typecode.ANY]

/-- The code of an array that has a type. -/
def isTyped (code : Int8) : Bool :=
  code = Typecode.CUSTOM || code = Typecode.STRUCT

namespace Item

mutual

def encode : Item → List UInt8
  | null => [Typecode.NULL.toUInt8]
  | boolean false => [Typecode.BOOLEAN_FALSE.toUInt8]
  | boolean true => [Typecode.BOOLEAN_TRUE.toUInt8]
  | integer value => value.encode
  | long value => Typecode.LONG.toUInt8 :: toBytes 8 value.toUInt64.toNat
  | float bits => Typecode.FLOAT.toUInt8 :: toBytes 4 bits.toNat
  | double bits => Typecode.DOUBLE.toUInt8 :: toBytes 8 bits.toNat
  | bytes length contents =>
      Typecode.BYTES.toUInt8 :: (length.encode ++ contents)
  | emptyString => [Typecode.EMPTY_STRING.toUInt8]
  | string length contents =>
      Typecode.STRING.toUInt8 :: (length.encode ++ contents)
  | array code type dim length elements =>
      Typecode.ARRAY.toUInt8 :: ((code.toUInt8 ::
        ((type.map Integer.encode).getD [] ++
          (dim.encode ++ length.encode))) ++
        (encodeAll elements ++ endCode))
  | struct custom type count fields =>
      (if custom then Typecode.CUSTOM else Typecode.STRUCT).toUInt8 ::
        ((type.encode ++ count.encode) ++ (encodeFields fields ++ endCode))

def encodeAll : List Item → List UInt8
  | [] => []
  | item :: items => item.encode ++ encodeAll items

def encodeFields : List (Integer × Item) → List UInt8
  | [] => []
  | (key, item) :: fields => (key.encode ++ item.encode) ++ encodeFields fields

end

/-! ## Well-formed items -/

mutual

/-- The lengths are those of what is there, and arrays have dimensions and
a content. -/
def Formed : Item → Prop
  | bytes length contents => length.number.toInt = contents.length
  | string length contents => length.number.toInt = contents.length
  | array code type dim length elements =>
      code ∈ contentCodes ∧ type.isSome = isTyped code ∧
        0 < dim.number.toInt ∧ 0 ≤ length.number.toInt ∧ FormedAll elements
  | struct _ _ _ fields => FormedFields fields
  | _ => True

def FormedAll : List Item → Prop
  | [] => True
  | item :: items => item.Formed ∧ FormedAll items

def FormedFields : List (Integer × Item) → Prop
  | [] => True
  | (_, item) :: fields => item.Formed ∧ FormedFields fields

end

end Item

/-! ## What a receiver knows -/

section Receiver

variable {T F V O : Type} [DecidableEq F] (vf : ValueFactory T F V O)

/-- The type of an array, if there is one, and if it is known. -/
def customType : Option Integer → Option (Option T)
  | none => some none
  | some type => (vf.getTypeById type.number).map some

mutual

/-- The value of an item to a receiver that has this validator for it, if it
has one. -/
def Item.value? (vtor : Option (EtchValidator V)) :
    Item → Option (Value T F O)
  | .null => validateValue vf vtor false (some .nullobj)
  | .boolean value => validateValue vf vtor false (some (.boolean value))
  | .integer value => validateValue vf vtor false (some value.object)
  | .long value => validateValue vf vtor false (some (.int64 value))
  | .float bits => validateValue vf vtor false (some (.float bits))
  | .double bits => validateValue vf vtor false (some (.double bits))
  | .bytes _ contents =>
      validateValue vf vtor false (some (.nativearray contents))
  | .emptyString => validateValue vf vtor false (some .emptystring)
  | .string _ contents =>
      validateValue vf vtor false (some (.string contents))
  | .array code type dim length elements =>
      match vtor.bind (EtchValidator.elementValidator vf),
          customType vf type, getNativeType code with
      | some ev, some customStructType, some content =>
          (Item.values? (some ev) elements).bind fun list =>
            validateValue vf vtor false (some (.arrayvalue
              ⟨code, customStructType, dim.number, length.number, content⟩
              list))
      | _, _, _ => none
  | .struct custom type _ fields =>
      match vf.getTypeById type.number with
      | none => none
      | some svtype =>
          (Item.known? svtype [] fields).bind fun items =>
            validateValue vf vtor false (if custom then
              vf.importCustomValue svtype items
            else
              some (.structvalue svtype items))

/-- The elements of an array. -/
def Item.values? (ev : Option (EtchValidator V)) :
    List Item → Option (List (Value T F O))
  | [] => some []
  | item :: items =>
      (item.value? ev).bind fun value =>
        (Item.values? ev items).map fun values => value :: values

/-- The fields that are known, put behind `items` with their values. -/
def Item.known? (svtype : T) (items : List (F × Value T F O)) :
    List (Integer × Item) → Option (List (F × Value T F O))
  | [] => some items
  | (key, item) :: fields =>
      match vf.getFieldById svtype key.number with
      | none => Item.known? svtype items fields
      | some keyField =>
          (item.value? (vf.getValidatorByName svtype keyField)).bind
            fun value =>
              (structvaluePut vf svtype items keyField value).bind
                fun items => Item.known? svtype items fields

end

mutual

/-- The unknown fields inside an item, at any depth, are such that the
receiver can have a value of them. -/
def Item.skips : Item → Bool
  | .array _ _ _ _ elements => Item.skipsAll elements
  | .struct _ type _ fields =>
      match vf.getTypeById type.number with
      | none => true
      | some svtype => Item.skipsFields svtype fields
  | _ => true

def Item.skipsAll : List Item → Bool
  | [] => true
  | item :: items => item.skips && Item.skipsAll items

def Item.skipsFields (svtype : T) : List (Integer × Item) → Bool
  | [] => true
  | (key, item) :: fields =>
      (item.skips && ((vf.getFieldById svtype key.number).isSome ||
        (item.value? vf (some .object)).isSome)) &&
          Item.skipsFields svtype fields

end

end Receiver

end Etch.C.BinaryTdi
