import Etch.C.Hashtable

/-!
# Objects as keys of the C maps

The hash key of a string is made of its characters in memory and that of a
number of its bytes, the lowest one first; any other object has one of its own.
-/

namespace Etch.C

open Etch.IdNames.C (Wchar)

/-- What decides the bytes of a key and how many of them tell keys apart. -/
structure KeyLayout where
  wchar : Wchar
  pointer : Pointer

/-- Strings with the memory at `v.value`, which goes on behind them, wrapped
primitives, and other objects with what they begin with. -/
inductive EtchObject where
  | string (ascii : Bool) (memory : List UInt8)
  | byte (value : UInt8)
  | boolean (value : UInt8)
  | int8 (value : UInt8)
  | int16 (value : UInt16)
  | int32 (value : UInt32)
  | int64 (value : UInt64)
  | float (bits : UInt32)
  | double (bits : UInt64)
  | other (header : ObjectHeader) (address : Nat)

/-- Characters as they stand in memory. -/
def wideCharacters : Wchar → List UInt8 → List UInt32
  | .ucs2, k0 :: k1 :: memory =>
      Jenkins.word k0 k1 0 0 :: wideCharacters .ucs2 memory
  | .ucs4, k0 :: k1 :: k2 :: k3 :: memory =>
      Jenkins.word k0 k1 k2 k3 :: wideCharacters .ucs4 memory
  | _, _ => []

/-- `etch_get_char_hashkey` for the characters in front of the terminator -/
def etch_get_char_hashkey (s : List UInt8) : UInt32 :=
  let keybytelen := UInt32.ofNat s.length
  if keybytelen = 0 then
    0
  else
    Jenkins.etchhash s keybytelen.toInt32 0

/-- So many bytes of a number in memory. -/
def littleEndian (bytelength : Nat) (value : UInt64) : List UInt8 :=
  (List.range bytelength).map fun position =>
    (value >>> UInt64.ofNat (8 * position)).toUInt8

/-- `etchhash(&value, bytelength, 0)` -/
def hashOfBytes (bytelength : Nat) (value : UInt64) : UInt32 :=
  Jenkins.etchhash (littleEndian bytelength value)
    (Int32.ofNat bytelength) 0

namespace EtchObject

variable (layout : KeyLayout)

/-- `get_hashkey(key)`: `etch_string_get_hashkey` takes the characters of every
string that is not of ASCII as wide ones, and `etch_number_get_hashkey` goes by
the class. -/
def hashkey : EtchObject → UInt32
  | .string true memory => etch_get_char_hashkey (memory.takeWhile (· ≠ 0))
  | .string false memory => etch_get_wchar_hashkey layout.wchar
      ((wideCharacters layout.wchar memory).takeWhile (· ≠ 0))
  | .byte value | .boolean value | .int8 value =>
      hashOfBytes 1 value.toUInt64
  | .int16 value => hashOfBytes 2 value.toUInt64
  | .int32 value | .float value => hashOfBytes 4 value.toUInt64
  | .int64 value | .double value => hashOfBytes 8 value
  | .other header _ => header.hashkey

/-- `ETCHTYPEB_PRIMITIVE`, of strings too -/
def objType : EtchObject → UInt16
  | .other header _ => header.objType
  | _ => 0x29

/-- `CLASSID_PRIMITIVE_BYTE` and those behind it -/
def classId : EtchObject → UInt16
  | .byte _ => 1
  | .boolean _ => 2
  | .int8 _ => 3
  | .int16 _ => 4
  | .int32 _ => 5
  | .int64 _ => 6
  | .float _ => 7
  | .double _ => 8
  | .string _ _ => 9
  | .other header _ => header.classId

def header (object : EtchObject) : ObjectHeader :=
  ⟨object.hashkey layout, object.objType, object.classId⟩

end EtchObject

end Etch.C
