import Mathlib.Algebra.Group.Int.Defs
import Mathlib.Algebra.Group.Nat.Defs
import Mathlib.Data.List.Basic

/-!
# C++ objects

The objects that messages are made of, as a smart pointer leads to them or
does not.  An object of any other class is known by its class and its state,
which only its import and export helper looks into.  A float or a double is
its bits.
-/

namespace Etch.Cpp

/-! ## Strings -/

/-- An `EtchString`: one that is made from a C string ends at its first NUL. -/
structure EtchString where
  bytes : List UInt8
  /-- whether `mEncoding` is `ENCODING_UTF8` -/
  utf8 : Bool
  terminated : utf8 = false → 0 ∉ bytes
deriving DecidableEq

/--
`etch_strlen_utf8(src, length)`, with the bytes that are still to be skipped,
up to the NUL behind the bytes; none when it reads behind that.  It stops at
a byte that starts no character.
-/
def etch_strlen_utf8 : Nat → List UInt8 → Option Nat
  | 0, [] => some 0
  | _ + 1, [] => none
  | skip + 1, _ :: src => etch_strlen_utf8 skip src
  | 0, byte :: src =>
      if byte = 0 then some 0
      else if byte &&& 0x80 = 0 then (· + 1) <$> etch_strlen_utf8 0 src
      else if byte &&& 0xF0 = 0xF0 then (· + 1) <$> etch_strlen_utf8 3 src
      else if byte &&& 0xE0 = 0xE0 then (· + 1) <$> etch_strlen_utf8 2 src
      else if byte &&& 0xC0 = 0xC0 then (· + 1) <$> etch_strlen_utf8 1 src
      else some 0

namespace EtchString

/-- `EtchString(string)`, up to its first NUL. -/
def ofCString (string : List UInt8) : EtchString where
  bytes := string.takeWhile (· ≠ 0)
  utf8 := false
  terminated _ inside := by
    have before : (string.takeWhile (· ≠ 0)).all (· ≠ 0) = true :=
      List.all_takeWhile
    exact absurd (List.all_eq_true.mp before 0 inside) (by decide)

/-- `EtchString(buffer, bufferSize, "utf-8")` -/
def ofUtf8 (buffer : List UInt8) : EtchString where
  bytes := buffer
  utf8 := true
  terminated := nofun

/-- `length()`, none when it reads behind the end. -/
def length (string : EtchString) : Option Nat :=
  if string.utf8 then etch_strlen_utf8 0 string.bytes
  else some string.bytes.length

end EtchString

/-! ## Classes -/

/-- A class whose objects are exported as structs. -/
inductive CustomClass where
  | runtimeException
  | date
  | list
  | hashTable
  | set
  | other (typeId : Nat)
deriving DecidableEq

/-- `EtchObjectType`; two are equal whatever the traits of the components. -/
inductive EtchObjectType where
  | object
  | bool
  | byte
  | short
  | int32
  | long
  | float
  | double
  | string
  | structValue
  | custom (clss : CustomClass)
  | nativeArray (component : EtchObjectType)
deriving DecidableEq

/-- `isArray()` -/
def EtchObjectType.isArray : EtchObjectType → Bool
  | nativeArray _ => true
  | _ => false

/-- An `EtchType` or an `EtchField`, by its id and its name. -/
structure EtchName where
  id : Int32
  name : EtchString
deriving DecidableEq

abbrev EtchType := EtchName

abbrev EtchField := EtchName

/-! ## Objects -/

/-- An object, or `NULL`. -/
inductive EtchObject where
  | null
  /-- `EtchBinaryTaggedData::NONE()` -/
  | NONE
  | bool (value : Bool)
  | byte (value : Int8)
  | short (value : Int16)
  | int32 (value : Int32)
  | long (value : Int64)
  | float (bits : UInt32)
  | double (bits : UInt64)
  | string (value : EtchString)
  /--
  An `EtchNativeArray` of smart pointers (`boxed`) or of a native type; the
  elements of one with more dimensions are its rows, `null` where none is set.
  -/
  | nativeArray (boxed : Bool) (component : EtchObjectType) (dim : Nat)
      (elements : List EtchObject)
  | structValue (type : EtchType) (fields : List (EtchField × EtchObject))
  | custom (clss : CustomClass) (state : List EtchObject)

namespace EtchObject

/-- `getObjectType()`, none for `NULL`. -/
def getObjectType : EtchObject → Option EtchObjectType
  | null => none
  | NONE => some .string
  | bool _ => some .bool
  | byte _ => some .byte
  | short _ => some .short
  | int32 _ => some .int32
  | long _ => some .long
  | float _ => some .float
  | double _ => some .double
  | string _ => some .string
  | nativeArray _ component _ _ => some (.nativeArray component)
  | structValue _ _ => some .structValue
  | custom clss _ => some (.custom clss)

/-- The number of an `EtchByte`, `EtchShort`, `EtchInt32` or `EtchLong`. -/
def integer? : EtchObject → Option Int
  | byte value => some value.toInt
  | short value => some value.toInt
  | int32 value => some value.toInt
  | long value => some value.toInt
  | _ => none

end EtchObject

/-! ## Widths -/

/-- The widths of integers. -/
inductive Width where
  | byte
  | short
  | int32
  | long

namespace Width

def bits : Width → Nat
  | byte => 8
  | short => 16
  | int32 => 32
  | long => 64

/-- The class of the integers of this width. -/
def clss : Width → EtchObjectType
  | byte => .byte
  | short => .short
  | int32 => .int32
  | long => .long

/-- The numbers of this width. -/
def InRange (width : Width) (value : Int) : Prop :=
  -2 ^ (width.bits - 1) ≤ value ∧ value < 2 ^ (width.bits - 1)

instance (width : Width) (value : Int) : Decidable (width.InRange value) :=
  inferInstanceAs (Decidable (_ ∧ _))

/-- An integer of this width, as a cast makes it. -/
def box (width : Width) (number : Int) : EtchObject :=
  match width with
  | byte => .byte (Int8.ofInt number)
  | short => .short (Int16.ofInt number)
  | int32 => .int32 (Int32.ofInt number)
  | long => .long (Int64.ofInt number)

@[simp]
theorem getObjectType_box (width : Width) (number : Int) :
    (width.box number).getObjectType = some width.clss := by
  cases width <;> rfl

theorem integer?_box {width : Width} {number : Int}
    (inside : width.InRange number) :
    (width.box number).integer? = some number := by
  obtain ⟨lower, upper⟩ := inside
  cases width <;>
    simp only [box, EtchObject.integer?, bits, Option.some.injEq]
      at lower upper ⊢
  · exact Int8.toInt_ofInt_of_le lower upper
  · exact Int16.toInt_ofInt_of_le lower upper
  · exact Int32.toInt_ofInt_of_le lower upper
  · exact Int64.toInt_ofInt_of_le lower upper

/-- An object of the class of a width has a number of that width. -/
theorem integer_of_clss {width : Width} {value : EtchObject}
    (is : value.getObjectType = some width.clss) :
    ∃ number, value.integer? = some number ∧ width.InRange number := by
  cases width with
  | byte =>
      cases value with
      | byte n => exact ⟨_, rfl, n.le_toInt, n.toInt_lt⟩
      | _ => exact nomatch is
  | short =>
      cases value with
      | short n => exact ⟨_, rfl, n.le_toInt, n.toInt_lt⟩
      | _ => exact nomatch is
  | int32 =>
      cases value with
      | int32 n => exact ⟨_, rfl, n.le_toInt, n.toInt_lt⟩
      | _ => exact nomatch is
  | long =>
      cases value with
      | long n => exact ⟨_, rfl, n.le_toInt, n.toInt_lt⟩
      | _ => exact nomatch is

end Width

end Etch.Cpp
