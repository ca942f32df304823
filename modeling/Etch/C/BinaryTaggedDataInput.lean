import Etch.C.Flexbuffer

/-!
# The C `binary_tagged_data_input`

A call that fails gives `NULL` or `-1` and leaves the buffer where it stands,
so that its caller may go on reading there.  The functions that read values
call one another, and what they call is an argument here; no result stands
for a run that has used up the number of such calls that it is given.
-/

namespace Etch.C

open Etch.Library.BigEndian
open Etch.Library.Window

/-- A function that reads from the buffer. -/
abbrev Reader := StateM EtchFlexbuffer

namespace EtchFlexbuffer

/-- A number of so many bytes; `none` is a result of `-1`. -/
def getNumber (size : Nat) : Reader (Option Nat) :=
  fun fbuf =>
    if fbuf.avail < size then
      (none, fbuf)
    else
      (some (ofBytes (window fbuf.buf fbuf.index (fbuf.index + size))),
        fbuf.skip size)

/-- `etch_flexbuf_get_byte`, as the `signed char` that it is read into -/
def getByte : Reader (Option Int8) :=
  Option.map Int8.ofNat <$> getNumber 1

def getShort : Reader (Option Int16) :=
  Option.map Int16.ofNat <$> getNumber 2

def getInt32 : Reader (Option Int32) :=
  Option.map Int32.ofNat <$> getNumber 4

def getLong : Reader (Option Int64) :=
  Option.map Int64.ofNat <$> getNumber 8

/-- The bits of a `float`. -/
def getFloat : Reader (Option UInt32) :=
  Option.map UInt32.ofNat <$> getNumber 4

/-- The bits of a `double`. -/
def getDouble : Reader (Option UInt64) :=
  Option.map UInt64.ofNat <$> getNumber 8

/-- The bytes that `etch_flexbuf_get_fully(fbuf, b, bufsize)` copies. -/
def getFully (bufsize : Nat) : Reader (List UInt8) :=
  fun fbuf =>
    let bytecount := min bufsize fbuf.avail
    (window fbuf.buf fbuf.index (fbuf.index + bytecount),
      fbuf.skip bytecount)

end EtchFlexbuffer

/-! ## The `ETCH_XTRNL_TYPECODE` codes -/

namespace Typecode

def NULL : Int8 := -128

def NONE : Int8 := -127

def BOOLEAN_FALSE : Int8 := -126

def BOOLEAN_TRUE : Int8 := -125

def BYTE : Int8 := -124

def SHORT : Int8 := -123

def INT : Int8 := -122

def LONG : Int8 := -121

def FLOAT : Int8 := -120

def DOUBLE : Int8 := -119

def BYTES : Int8 := -117

def ARRAY : Int8 := -111

def EMPTY_STRING : Int8 := -110

def STRING : Int8 := -109

def STRUCT : Int8 := -108

def CUSTOM : Int8 := -107

def ANY : Int8 := -106

def MIN_TINY_INT : Int8 := -64

end Typecode

/-- `is_inrange_tiny_for_signed_chars` -/
def isTiny (code : Int8) : Bool :=
  decide (Typecode.MIN_TINY_INT ≤ code)

/-- `ETCH_BINTAGDATA_CURRENT_VERSION` -/
def CURRENT_VERSION : Int8 := 3

/-- `ETCHVTOR_MAX_NDIMS`, as large as `ETCH_MAX_NATIVE_DIM` -/
def MAX_NDIMS : Int := 3

/-! ## Values -/

/-- The class of what an array holds, an `etch_array_id_params`. -/
inductive ContentClass where
  | int32
  | string
  | byte
  | int64
  | int16
  | double
  | bool
  | float
  | object
  | arrayByte
  | int8

/-- An `etch_arrayvalue` as `bintdi_alloc_array` makes it. -/
structure ArrayHeader (T : Type) where
  typeCode : Int8
  customStructType : Option T
  dim : Int32
  initsize : Int32
  content : ContentClass

/-- The objects that are read; `T`, `F` and `O` are the types, the fields and
the objects that a value factory makes of structs. -/
inductive Value (T F O : Type) where
  | nullobj
  | eodmarker
  | boolean (value : Bool)
  | byte (value : Int8)
  | int16 (value : Int16)
  | int32 (value : Int32)
  | int64 (value : Int64)
  | float (bits : UInt32)
  | double (bits : UInt64)
  | nativearray (values : List UInt8)
  | emptystring
  | string (bytes : List UInt8)
  | structvalue (structType : T) (items : List (F × Value T F O))
  | arrayvalue (header : ArrayHeader T) (list : List (Value T F O))
  | object (object : O)

/-- An `etch_validator`: the two that the input asks for by itself, and those
of the fields. -/
inductive EtchValidator (V : Type) where
  /-- `etchvtor_int32_get(0)` -/
  | int32
  /-- `etchvtor_object_get(0)` -/
  | object
  | field (vtor : V)

/-- An `etch_value_factory` with its types and validators. -/
structure ValueFactory (T F V O : Type) where
  getTypeById : Int32 → Option T
  getFieldById : T → Int32 → Option F
  getValidatorByName : T → F → Option (EtchValidator V)
  validate : V → Value T F O → Bool
  validateValue : V → Value T F O → Option (Value T F O)
  elementValidator : V → Option (EtchValidator V)
  importCustomValue : T → List (F × Value T F O) → Option (Value T F O)
  /-- `etch.validate.write` -/
  validateWrite : Bool

variable {T F V O : Type}

namespace Value

/-- `etchtagdata_is_eod` -/
def isEod : Value T F O → Bool
  | eodmarker => true
  | _ => false

/-- `etchtagdata_is_null` -/
def isNull : Value T F O → Bool
  | nullobj => true
  | _ => false

/-- The number that `etchvtor_int32_validate_value` makes an `etch_int32` of. -/
def int32? : Value T F O → Option Int32
  | byte value => some value.toInt32
  | int16 value => some value.toInt32
  | int32 value => some value
  | int64 value =>
      if Int32.minValue.toInt64 ≤ value ∧ value ≤ Int32.maxValue.toInt64 then
        some value.toInt32
      else
        none
  | _ => none

/-- `((etch_int32*) object)->value` -/
def idOf : Value T F O → Int32
  | int32 value => value
  | _ => 0

end Value

/-- `import_custom_value(vf, keys_values)` -/
def ValueFactory.reconstituted (vf : ValueFactory T F V O) :
    Value T F O → Option (Value T F O)
  | .structvalue structType items => vf.importCustomValue structType items
  | _ => none

namespace EtchValidator

variable (vf : ValueFactory T F V O)

/-- `vtor->validate(vtor, value)`, that it gives `0` -/
def validate : EtchValidator V → Value T F O → Bool
  | int32, value => value.int32?.isSome
  | object, _ => true
  | field vtor, value => vf.validate vtor value

/-- `vtor->validate_value(vtor, value)` -/
def validateValue : EtchValidator V → Value T F O → Option (Value T F O)
  | int32, value => value.int32?.map .int32
  | object, value => some value
  | field vtor, value => vf.validateValue vtor value

/-- `vtor->element_validator(vtor)` -/
def elementValidator : EtchValidator V → Option (EtchValidator V)
  | int32 => none
  | object => some object
  | field vtor => vf.elementValidator vtor

end EtchValidator

namespace BinaryTdi

open EtchFlexbuffer

/-! ## Tokens -/

/-- `bintdi_read_value_rawint`; where it gives `-1` the integer is `0`. -/
def readValueRawint : Reader (Option Int32) := do
  match ← getByte with
  | none => return none
  | some objtype =>
      if isTiny objtype then
        return some objtype.toInt32
      else if objtype = Typecode.INT then
        getInt32
      else if objtype = Typecode.SHORT then
        return (← getShort).map Int16.toInt32
      else if objtype = Typecode.BYTE then
        return (← getByte).map Int8.toInt32
      else
        return none

/-- The bytes that `bintdi_read_bytes` copies. -/
def copyBytes (bytecount : Int32) : Reader (Option (List UInt8)) :=
  fun fbuf =>
    if 0 ≤ bytecount.toInt ∧ toSize bytecount.toInt ≤ fbuf.avail then
      let (buf, fbuf) := getFully bytecount.toInt.toNat fbuf
      (some buf, fbuf)
    else
      (none, fbuf)

/-- `bintdi_read_bytes`, without the padding that its callers ask for -/
def readBytes : Reader (Option (List UInt8)) := do
  match ← readValueRawint with
  | none => return none
  | some bytecount => copyBytes bytecount

section Headers

variable (vf : ValueFactory T F V O)

def readType : Reader (Option T) := do
  return (← readValueRawint).bind vf.getTypeById

/-- The type and the item count that `bintdi_start_message` passes on to
`new_message`. -/
def startMessage : Reader (Option (T × Int32)) := do
  let wireVersion := (← getByte).getD 0
  if wireVersion ≠ CURRENT_VERSION then
    return none
  else do
    match ← readType vf with
    | none => return none
    | some typeobj =>
        return (← readValueRawint).map fun messageItemcount =>
          (typeobj, messageItemcount)

/-- The type and the item count that `bintdi_start_struct` passes on to
`new_structvalue`. -/
def startStruct : Reader (Option (T × Int32)) := do
  match ← readType vf with
  | none => return none
  | some thistype =>
      return (← readValueRawint).map fun structItemcount =>
        (thistype, structItemcount)

end Headers

/-- `bintdi_get_native_type` -/
def getNativeType (externalTypecode : Int8) : Option ContentClass :=
  if externalTypecode = Typecode.INT then
    some .int32
  else if externalTypecode = Typecode.STRING ∨
      externalTypecode = Typecode.EMPTY_STRING then
    some .string
  else if externalTypecode = Typecode.BYTE then
    some .byte
  else if externalTypecode = Typecode.LONG then
    some .int64
  else if externalTypecode = Typecode.SHORT then
    some .int16
  else if externalTypecode = Typecode.DOUBLE then
    some .double
  else if externalTypecode = Typecode.BOOLEAN_TRUE ∨
      externalTypecode = Typecode.BOOLEAN_FALSE then
    some .bool
  else if externalTypecode = Typecode.FLOAT then
    some .float
  else if externalTypecode = Typecode.ANY ∨
      externalTypecode = Typecode.ARRAY ∨
      externalTypecode = Typecode.STRUCT ∨
      externalTypecode = Typecode.CUSTOM ∨
      externalTypecode = Typecode.NULL then
    some .object
  else if externalTypecode = Typecode.BYTES then
    some .arrayByte
  else if isTiny externalTypecode then
    some .int8
  else
    none

/-- `bintdi_alloc_array` -/
def allocArray (arrayContentType : Int8) (customType : Option T)
    (ndims nelements : Int32) : Option (ArrayHeader T) :=
  (getNativeType arrayContentType).map fun content =>
    ⟨arrayContentType, customType, ndims, nelements, content⟩

/-- The array that `bintdi_start_array` goes on with behind the type. -/
def startElements (arrayContentType : Int8) (customType : Option T) :
    Reader (Option (ArrayHeader T)) := do
  -- the results of these two calls are not looked at
  let numdimensions := (← readValueRawint).getD 0
  let numelements := (← readValueRawint).getD 0
  if numdimensions.toInt ≤ 0 ∨ numelements.toInt < 0 then
    return none
  else
    return allocArray arrayContentType customType numdimensions numelements

def startArray (vf : ValueFactory T F V O) :
    Reader (Option (ArrayHeader T)) := do
  let arrayContentType := (← getByte).getD 0
  if arrayContentType = Typecode.CUSTOM ∨
      arrayContentType = Typecode.STRUCT then do
    match ← readType vf with
    | none => return none
    | some customType => startElements arrayContentType (some customType)
  else
    startElements arrayContentType none

/-- The cases of `bintdi_read_valuex` that read a number or nothing. -/
def readScalar (objtype : Int8) : Reader (Option (Value T F O)) :=
  if objtype = Typecode.NULL then
    return some .nullobj
  else if objtype = Typecode.NONE then
    return some .eodmarker
  else if objtype = Typecode.BOOLEAN_FALSE then
    return some (.boolean false)
  else if objtype = Typecode.BOOLEAN_TRUE then
    return some (.boolean true)
  else if objtype = Typecode.BYTE then
    return (← getByte).map .byte
  else if objtype = Typecode.SHORT then
    return (← getShort).map .int16
  else if objtype = Typecode.INT then
    return (← getInt32).map .int32
  else if objtype = Typecode.LONG then
    return (← getLong).map .int64
  else if objtype = Typecode.FLOAT then
    return (← getFloat).map .float
  else if objtype = Typecode.DOUBLE then
    return (← getDouble).map .double
  else if objtype = Typecode.EMPTY_STRING then
    return some .emptystring
  else if isTiny objtype then
    return some (.byte objtype)
  else
    return none

/-- `bintdi_validate_value` and `bintdi_validate_valuex` -/
def validateValue (vf : ValueFactory T F V O)
    (vtor : Option (EtchValidator V)) (isNoneOk : Bool)
    (value : Option (Value T F O)) : Option (Value T F O) := do
  let value ← value
  let vtor ← vtor
  if (value.isEod || value.isNull) && isNoneOk then
    return value
  else
    vtor.validateValue vf value

/-- `structvalue_put`, without a result where it gives `-1`; a key that the
table holds is not inserted again. -/
def structvaluePut [DecidableEq F] (vf : ValueFactory T F V O)
    (structType : T) (items : List (F × Value T F O)) (key : F)
    (value : Value T F O) : Option (List (F × Value T F O)) :=
  if vf.validateWrite && !((vf.getValidatorByName structType key).any
      fun vtor => vtor.validate vf value) then
    none
  else if key ∈ items.map Prod.fst then
    none
  else
    some (items ++ [(key, value)])

/-- The validator of a field.  An unknown field, whose value is skipped, may
have any object. -/
def memberVtor (vf : ValueFactory T F V O) (svtype : T) (id : Int32) :
    Option (EtchValidator V) :=
  match vf.getFieldById svtype id with
  | none => some .object
  | some keyField => vf.getValidatorByName svtype keyField

/-- The items with the value of a field; those of an unknown field are as
they were, provided that there is a value. -/
def memberStored [DecidableEq F] (vf : ValueFactory T F V O) (svtype : T)
    (items : List (F × Value T F O)) (id : Int32)
    (thisvalue : Option (Value T F O)) : Option (List (F × Value T F O)) :=
  match vf.getFieldById svtype id with
  | none => thisvalue.map fun _ => items
  | some keyField =>
      thisvalue.bind (structvaluePut vf svtype items keyField)

/-! ## Calls of one another -/

/-- A count or a length that the input has accepted. -/
inductive Accepted where
  /-- the size of a message or of a struct -/
  | items (itemcount : Int)
  /-- the size of an array -/
  | elements (numdimensions numelements : Int)
  /-- the size of a byte array or of a string -/
  | bytes (bytecount : Int)
deriving DecidableEq

def Accepted.count : Accepted → Int
  | items itemcount => itemcount
  | elements _ numelements => numelements
  | bytes bytecount => bytecount

/-- The part of a count that is no length of bytes. -/
def Accepted.announced : Accepted → Int
  | items itemcount => itemcount
  | elements _ numelements => numelements
  | bytes _ => 0

/-- The part of a count that is a length of bytes. -/
def Accepted.copied : Accepted → Nat
  | bytes bytecount => bytecount.toNat
  | _ => 0

/-- What a call gives back: its result, what was accepted on the way, and
the buffer. -/
structure Outcome (R : Type) where
  result : Option R
  accepted : List Accepted
  flexbuf : EtchFlexbuffer

/-- What the functions that read values call. -/
structure Calls (T F V O : Type) where
  readValuex : Option (EtchValidator V) → Bool → EtchFlexbuffer →
    Option (Outcome (Value T F O))
  readKeysValues : T → List (F × Value T F O) → EtchFlexbuffer →
    Option (Outcome (Value T F O))
  readValues : ArrayHeader T → Option (EtchValidator V) →
    List (Value T F O) → EtchFlexbuffer → Option (Outcome (Value T F O))

namespace Outcome

variable {R S : Type}

/-- The result of what follows, with what was accepted before. -/
def after (accepted : List Accepted) (outcome : Outcome R) : Outcome R :=
  { outcome with accepted := accepted ++ outcome.accepted }

def map (next : Option R → Option S) (outcome : Outcome R) : Outcome S :=
  ⟨next outcome.result, outcome.accepted, outcome.flexbuf⟩

end Outcome

section Reading

variable [DecidableEq F] (vf : ValueFactory T F V O)
  (next : Calls T F V O)

/-- `bintdi_read_struct` -/
def readStruct (fbuf : EtchFlexbuffer) : Option (Outcome (Value T F O)) :=
  match startStruct vf fbuf with
  | (none, fbuf) => some ⟨none, [], fbuf⟩
  | (some (thistype, itemcount), fbuf) =>
      (next.readKeysValues thistype [] fbuf).map
        (.after [.items itemcount.toInt])

/-- `bintdi_read_array` -/
def readArray (vtor : Option (EtchValidator V)) (fbuf : EtchFlexbuffer) :
    Option (Outcome (Value T F O)) :=
  match startArray vf fbuf with
  | (none, fbuf) => some ⟨none, [], fbuf⟩
  | (some header, fbuf) =>
      let accepted :=
        [.elements header.dim.toInt header.initsize.toInt]
      match vtor with
      | none => some ⟨none, accepted, fbuf⟩
      | some vtor =>
          (next.readValues header (vtor.elementValidator vf) [] fbuf).map
            (.after accepted)

/-- `bintdi_read_bytearray` or `bintdi_read_string` -/
def readBuffer (found : Option (List UInt8) → Option (Value T F O))
    (fbuf : EtchFlexbuffer) : Outcome (Value T F O) :=
  match readBytes fbuf with
  | (none, fbuf) => ⟨found none, [], fbuf⟩
  | (some buf, fbuf) => ⟨found (some buf), [.bytes buf.length], fbuf⟩

/-- The object that the wire holds, before it is validated. -/
def readObject (vtor : Option (EtchValidator V)) (objtype : Int8)
    (fbuf : EtchFlexbuffer) : Option (Outcome (Value T F O)) :=
  if objtype = Typecode.BYTES then
    -- an array of no bytes stands for the one that could not be read
    some (readBuffer (fun buf => some (.nativearray (buf.getD []))) fbuf)
  else if objtype = Typecode.STRING then
    some (readBuffer (Option.map .string) fbuf)
  else if objtype = Typecode.STRUCT then
    readStruct vf next fbuf
  else if objtype = Typecode.ARRAY then
    readArray vf next vtor fbuf
  else if objtype = Typecode.CUSTOM then
    (readStruct vf next fbuf).map (.map (Option.bind · vf.reconstituted))
  else
    let (object, fbuf) := readScalar objtype fbuf
    some ⟨object, [], fbuf⟩

/-- `bintdi_read_valuex` -/
def readValuex (vtor : Option (EtchValidator V)) (isNoneOk : Bool)
    (fbuf : EtchFlexbuffer) : Option (Outcome (Value T F O)) :=
  match getByte fbuf with
  | (none, fbuf) => some ⟨none, [], fbuf⟩
  | (some objtype, fbuf) =>
      -- only the end of data is passed on with `is_none_ok`
      (readObject vf next vtor objtype fbuf).map (.map
        (validateValue vf vtor (isNoneOk && objtype = Typecode.NONE)))

/-- A pass of the loop in `bintdi_read_keys_values`, and those after it. -/
def readKeysValues (svtype : T) (items : List (F × Value T F O))
    (fbuf : EtchFlexbuffer) : Option (Outcome (Value T F O)) := do
  let ⟨thisobj, accepted, fbuf⟩ ←
    next.readValuex (some .int32) true fbuf
  -- nothing at all ends the struct as the end of data does
  let some thisobj := thisobj
    | return ⟨some (.structvalue svtype items), accepted, fbuf⟩
  if thisobj.isEod then
    return ⟨some (.structvalue svtype items), accepted, fbuf⟩
  else do
    let id := thisobj.idOf
    let ⟨thisvalue, accepted', fbuf⟩ ←
      next.readValuex (memberVtor vf svtype id) false fbuf
    match memberStored vf svtype items id thisvalue with
    | none => return ⟨none, accepted ++ accepted', fbuf⟩
    | some items =>
        (next.readKeysValues svtype items fbuf).map
          (.after (accepted ++ accepted'))

/-- A pass of the loop in `bintdi_read_values`, and those after it. -/
def readValues (header : ArrayHeader T) (ev : Option (EtchValidator V))
    (list : List (Value T F O)) (fbuf : EtchFlexbuffer) :
    Option (Outcome (Value T F O)) := do
  let ⟨thisobj, accepted, fbuf⟩ ← next.readValuex ev true fbuf
  let some thisobj := thisobj
    | return ⟨none, accepted, fbuf⟩
  if thisobj.isEod then
    return ⟨some (.arrayvalue header list), accepted, fbuf⟩
  else
    (next.readValues header ev (list ++ [thisobj]) fbuf).map
      (.after accepted)

/-- The functions with so many calls of one another left. -/
def calls : Nat → Calls T F V O
  | 0 => ⟨fun _ _ _ => none, fun _ _ _ => none, fun _ _ _ _ => none⟩
  | fuel + 1 =>
      ⟨readValuex vf (calls fuel), readKeysValues vf (calls fuel),
        readValues (calls fuel)⟩

/--
`bintdi_read_message` with so many calls.  `bintdi_end_message`, which copies
an exception in a reply to the place of its result, reads nothing.
-/
def readMessageWithin (fuel : Nat) (fbuf : EtchFlexbuffer) :
    Option (Outcome (Value T F O)) :=
  match startMessage vf fbuf with
  | (none, fbuf) => some ⟨none, [], fbuf⟩
  | (some (typeobj, itemcount), fbuf) =>
      ((calls vf fuel).readKeysValues typeobj [] fbuf).map
        (.after [.items itemcount.toInt])

/-- `bintdi_read_message_from`, with as many calls as the bytes need -/
def readMessageFrom (buf : List UInt8) : Option (Outcome (Value T F O)) :=
  readMessageWithin vf (2 * buf.length + 2) (newFlexbufferFrom buf)

end Reading

end BinaryTdi

end Etch.C
