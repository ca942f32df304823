import Etch.Go.BinaryTaggedDataInput
import Etch.Go.EncodedItems
import Etch.Library.Reading

/-!
# What the Go decoder reads as it was meant

The id of a type or of a field is read only where it is an `INT`.  Booleans,
arrays of more than one dimension and elements that look like the end of their
array are not read, and neither is a struct with a key that its type does not
have.  Everything else is read as its value, whatever is behind it.
-/

namespace Etch.Go.BinaryTaggedDataInput

open Etch.Library.BigEndian
open Etch.Library.Window
open Etch.Library.Reading

variable {O : Type}

/-! ## Numbers -/

/-- These bytes are left to read. -/
def Holds (fb : FlexBuffer) (bytes : List UInt8) : Prop :=
  fb.Valid ∧ fb.unread = bytes

theorem reads_readFull (bytes : List UInt8) :
    Reads Holds (fun fb => fb.readFull bytes.length) bytes bytes := by
  rintro fb rest ⟨valid, unread⟩
  have enough : bytes.length ≤ fb.unread.length := by
    rw [unread, List.length_append]
    exact Nat.le_add_right _ _
  obtain ⟨next, done, buf, index, length⟩ :=
    FlexBuffer.readFull_ok valid enough
  rw [unread, List.take_left] at done
  have left : next.unread = fb.unread.drop bytes.length := by
    rw [FlexBuffer.unread, buf, index, length, FlexBuffer.unread, drop_window]
  have inside : fb.index + bytes.length ≤ fb.length := by
    rw [FlexBuffer.unread, length_window valid.length_le] at enough
    have := valid.index_le
    omega
  refine ⟨next, done, ⟨?_, ?_⟩, ?_⟩
  · rw [index, length]
    exact inside
  · rw [buf, length]
    exact valid.length_le
  · rw [left, unread, List.drop_left]

theorem reads_readNumber {size value : Nat} (small : value < 256 ^ size) :
    Reads Holds (readNumber size) (toBytes size value) value := by
  intro fb rest holds
  obtain ⟨next, done, holds⟩ := reads_readFull _ fb rest holds
  dsimp only at done
  rw [length_toBytes] at done
  refine ⟨next, ?_, holds⟩
  unfold readNumber
  rw [done, Option.map_some]
  dsimp only
  rw [ofBytes_toBytes_of_lt small]

theorem reads_readByte (value : Int8) :
    Reads Holds readByte [value.toUInt8] value := by
  have small : value.toUInt8.toNat < 256 ^ 1 := value.toUInt8.toNat_lt
  have bytes : toBytes 1 value.toUInt8.toNat = [value.toUInt8] := by
    simp [toBytes]
  have same : Int8.ofNat value.toUInt8.toNat = value :=
    congrArg UInt8.toInt8 UInt8.ofNat_toNat
  have reads := (reads_readNumber small).map Int8.ofNat
  rwa [bytes, same] at reads

theorem reads_readShort (value : Int16) :
    Reads Holds readShort (toBytes 2 value.toUInt16.toNat) value := by
  have small : value.toUInt16.toNat < 256 ^ 2 := value.toUInt16.toNat_lt
  have same : Int16.ofNat value.toUInt16.toNat = value :=
    congrArg UInt16.toInt16 UInt16.ofNat_toNat
  have reads := (reads_readNumber small).map Int16.ofNat
  rwa [same] at reads

theorem reads_readInt (value : Int32) :
    Reads Holds readInt (toBytes 4 value.toUInt32.toNat) value := by
  have small : value.toUInt32.toNat < 256 ^ 4 := value.toUInt32.toNat_lt
  have same : Int32.ofNat value.toUInt32.toNat = value :=
    congrArg UInt32.toInt32 UInt32.ofNat_toNat
  have reads := (reads_readNumber small).map Int32.ofNat
  rwa [same] at reads

theorem reads_readLong (value : Int64) :
    Reads Holds readLong (toBytes 8 value.toUInt64.toNat) value := by
  have small : value.toUInt64.toNat < 256 ^ 8 := value.toUInt64.toNat_lt
  have same : Int64.ofNat value.toUInt64.toNat = value :=
    congrArg UInt64.toInt64 UInt64.ofNat_toNat
  have reads := (reads_readNumber small).map Int64.ofNat
  rwa [same] at reads

theorem reads_readFloat (bits : UInt32) :
    Reads Holds readFloat (toBytes 4 bits.toNat) bits := by
  have small : bits.toNat < 256 ^ 4 := bits.toNat_lt
  have reads := (reads_readNumber small).map UInt32.ofNat
  rwa [UInt32.ofNat_toNat] at reads

theorem reads_readDouble (bits : UInt64) :
    Reads Holds readDouble (toBytes 8 bits.toNat) bits := by
  have small : bits.toNat < 256 ^ 8 := bits.toNat_lt
  have reads := (reads_readNumber small).map UInt64.ofNat
  rwa [UInt64.ofNat_toNat] at reads

/-! ## Codes, integers and bytes -/

section Calls

variable (vf : ValueFactory O)

/-- A value is read when what follows its code is. -/
theorem settles_value {code : Int8} {noneOk : Bool} {bytes : List UInt8}
    {value : Value O}
    (payload : Settles Holds
      (fun fuel => readPayload vf (calls vf fuel) code noneOk) bytes value) :
    Settles Holds (fun fuel => (calls vf fuel).readValue noneOk)
      (code.toUInt8 :: bytes) value := by
  have read := Settles.of_reads (reads_readByte code)
  exact (read.bind payload).step fun _ => rfl

theorem reads_value {fuel : Nat} {code : Int8} {noneOk : Bool}
    {bytes : List UInt8} {value : Value O}
    (payload : Reads Holds (readPayload vf (calls vf fuel) code noneOk)
      bytes value) :
    Reads Holds ((calls vf (fuel + 1)).readValue noneOk)
      (code.toUInt8 :: bytes) value :=
  (reads_readByte code).bind payload

/-- An integer is read without another call of `readValue`. -/
theorem reads_integer (fuel : Nat) (noneOk : Bool) (integer : Integer) :
    Reads Holds ((calls vf (fuel + 1)).readValue noneOk)
      integer.encode integer.value := by
  cases integer with
  | tiny value small =>
      refine reads_value vf ?_
      have other (code : Int8) (below : code < TypeCode.MIN_TINY_INT) :
          value ≠ code := by
        rintro rfl
        exact Int8.lt_irrefl (Int8.lt_of_lt_of_le below small)
      rw [readPayload,
        if_neg (other TypeCode.NULL (by decide)),
        if_neg (other TypeCode.NONE (by decide)),
        if_neg (other TypeCode.BYTE (by decide)),
        if_neg (other TypeCode.SHORT (by decide)),
        if_neg (other TypeCode.INT (by decide)),
        if_neg (other TypeCode.LONG (by decide)),
        if_neg (other TypeCode.FLOAT (by decide)),
        if_neg (other TypeCode.DOUBLE (by decide)),
        if_neg (other TypeCode.BYTES (by decide)),
        if_neg (other TypeCode.ARRAY (by decide)),
        if_neg (other TypeCode.EMPTY_STRING (by decide)),
        if_neg (other TypeCode.STRING (by decide)),
        if_neg (other TypeCode.CUSTOM (by decide)),
        if_pos ⟨small, Int8.le_maxValue value⟩]
      exact .pure _
  | byte value =>
      exact reads_value vf ((reads_readByte value).map Value.int8)
  | short value =>
      exact reads_value vf ((reads_readShort value).map Value.int16)
  | int value =>
      exact reads_value vf ((reads_readInt value).map Value.int32)
  | long value =>
      exact reads_value vf ((reads_readLong value).map Value.int64)

theorem settles_integer (noneOk : Bool) (integer : Integer) :
    Settles Holds (fun fuel => (calls vf fuel).readValue noneOk)
      integer.encode integer.value := by
  refine ⟨1, fun more enough => ?_⟩
  obtain ⟨fuel, rfl⟩ := Nat.exists_eq_add_of_le' enough
  exact reads_integer vf fuel noneOk integer

theorem settles_readIntegerValue (integer : Integer) :
    Settles Holds (fun fuel => readIntegerValue (calls vf fuel))
      integer.encode integer.id := by
  have id : (integer.value : Value O).toInteger = integer.id := by
    rw [Value.toInteger, Integer.integer?_value]
    rfl
  rw [← id]
  have returned : Settles Holds (fun _ => pure (integer.value :
      Value O).toInteger) [] (integer.value : Value O).toInteger := .pure _
  exact (settles_integer vf false integer).bind_nil returned

/-- A length as the number of elements that it stands for. -/
theorem id_length {length : Integer} {count : Nat}
    (size : length.number = count) (small : count < 2 ^ 31) :
    length.id.toInt = count := by
  rw [Integer.id, size]
  exact Int32.toInt_ofInt_of_le (by omega) (by omega)

theorem not_negative {length : Int32} {count : Nat}
    (size : length.toInt = count) : ¬ length < 0 := by
  intro negative
  have := Int32.lt_iff_toInt_lt.mp negative
  rw [size, Int32.toInt_zero] at this
  omega

theorem settles_readBytes {length : Integer} {contents : List UInt8}
    (size : length.number = contents.length)
    (small : contents.length < 2 ^ 31) :
    Settles Holds (fun fuel => readBytes (calls vf fuel))
      (length.encode ++ contents) contents := by
  have count := id_length size small
  refine (settles_readIntegerValue vf length).bind ?_
  rw [if_neg (not_negative count), count, Int.toNat_natCast]
  exact .of_reads (reads_readFull contents)

/-! ## Types and fields -/

/-- Only an `INT` is the id of a type. -/
theorem settles_readType (type : Integer) :
    Settles Holds (fun fuel => readType vf (calls vf fuel))
      type.encode (type.int?.bind vf.GetTypeById) := by
  refine (settles_integer vf true type).bind_nil ?_
  cases type <;> exact .pure _

/-- Only an `INT` is the id of a field. -/
theorem settles_readField (t : EtchType O) (key : Integer) :
    Settles Holds (fun fuel => readField (calls vf fuel) t)
      key.encode (key.int?.bind t.Fields) := by
  refine (settles_integer vf true key).bind_nil ?_
  cases key <;> exact .pure _

/-- The end of a struct is read as a field that is not known. -/
theorem settles_readField_end (t : EtchType O) :
    Settles Holds (fun fuel => readField (calls vf fuel) t) endCode none := by
  have ends : Settles Holds (fun fuel => (calls vf fuel).readValue true)
      endCode (.int8 TypeCode.NONE : Value O) :=
    settles_value vf (.pure _)
  exact ends.bind_nil (.pure _)

theorem settles_startStruct {type : Integer} {t : EtchType O}
    (found : type.int?.bind vf.GetTypeById = some t) (count : Integer) :
    Settles Holds (fun fuel => startStruct vf (calls vf fuel))
      (type.encode ++ count.encode) (some ⟨t, []⟩) := by
  refine (settles_readType vf type).bind ?_
  rw [found]
  exact (settles_readIntegerValue vf count).bind_nil (.pure _)

/-! ## Arrays -/

theorem make_eq {zero : Value O} {length : Int32} {count : Nat}
    (size : length.toInt = count) :
    make zero length = some (List.replicate count zero) := by
  rw [make, if_neg (not_negative size), size, Int.toNat_natCast]

/-- The slice for an array has a place for each element. -/
theorem newArrayForType_kind {code : Int8} {type : Option Integer}
    {kind : Kind} (kinds : kindOf vf code type = some kind)
    {length : Int32} {count : Nat} (size : length.toInt = count) :
    ∃ zero, newArrayForType code
      (type.bind fun type => vf.GetTypeById type.id) length =
        some ⟨some (kind, List.replicate count zero)⟩ := by
  unfold kindOf at kinds
  unfold newArrayForType
  simp only [make_eq size, Option.map_some]
  split_ifs at kinds ⊢
  any_goals
    cases kinds
    exact ⟨_, rfl⟩
  -- an array of structs
  · obtain ⟨id, array, rfl⟩ := Option.map_eq_some_iff.mp kinds
    rw [array]
    exact ⟨_, rfl⟩

/-- An element is put as it is converted. -/
theorem assign_of_convert {kind : Kind} {value converted : Value O}
    (converts : convert vf kind value = some converted) :
    assign vf kind value = some converted := by
  cases kind with
  | int8 | int16 | int32 =>
      obtain ⟨n, number, converts⟩ := Option.bind_eq_some_iff.mp converts
      split at converts
      · cases converts
        cases value <;> cases number <;> rfl
      · exact nomatch converts
  | int64 =>
      obtain ⟨n, number, rfl⟩ := Option.map_eq_some_iff.mp converts
      cases value <;> cases number <;> rfl
  | float32 | float64 | other _ => exact converts
  | any =>
      cases value with
      | string contents => exact converts
      | _ => exact nomatch converts

/-- Structs in an array have a type, as an `INT`, and nothing else has. -/
def Typed (code : Int8) : Option Integer → Prop
  | none => code ≠ TypeCode.CUSTOM
  | some type => code = TypeCode.CUSTOM ∧ type.int?.isSome

theorem settles_readArrayType {code : Int8} {type : Option Integer}
    (typed : Typed code type) :
    Settles Holds (fun fuel => readArrayType vf (calls vf fuel) code)
      ((type.map Integer.encode).getD [])
      (type.bind fun type => vf.GetTypeById type.id) := by
  cases type with
  | none =>
      simp only [readArrayType, if_neg (show code ≠ _ from typed)]
      exact .pure _
  | some type =>
      obtain ⟨custom, int⟩ := typed
      obtain ⟨id, int⟩ := Option.isSome_iff_exists.mp int
      have settles := settles_readType vf type
      rw [int, Option.bind_some, ← Integer.id_of_int? int] at settles
      simp only [readArrayType, if_pos custom]
      exact settles

theorem settles_startArray {code : Int8} {type : Option Integer}
    {dim length : Integer} {kind : Kind} {count : Nat}
    (kinds : kindOf vf code type = some kind) (typed : Typed code type)
    (single : dim.number = 1) (size : length.number = count)
    (small : count < 2 ^ 31) :
    ∃ zero, Settles Holds (fun fuel => startArray vf (calls vf fuel))
      ([code.toUInt8] ++ ((type.map Integer.encode).getD [] ++
        (dim.encode ++ length.encode)))
      (some ⟨some (kind, List.replicate count zero)⟩) := by
  obtain ⟨zero, slice⟩ := newArrayForType_kind vf kinds (id_length size small)
  have one : dim.id = 1 := by
    rw [Integer.id, single]
    rfl
  refine ⟨zero, (Settles.of_reads (reads_readByte code)).bind ?_⟩
  refine (settles_readArrayType vf typed).bind ?_
  refine (settles_readIntegerValue vf dim).bind ?_
  simp only [one, ne_eq, not_true, if_false]
  refine (settles_readIntegerValue vf length).bind_nil ?_
  rw [slice]
  exact .pure _

/-! ## Items that are read as they were meant -/

mutual

/-- The decoder reads an item as its value, if it has one. -/
def Readable : Item → Prop
  | .boolean _ => False
  | .array code type _ _ elements =>
      Typed code type ∧ ReadableElements elements
  | .struct type _ fields =>
      type.int?.isSome ∧ (fields.map fun field => field.1.id).Nodup ∧
        ∀ t, vf.GetTypeById type.id = some t → ReadableFields t fields
  | _ => True

/-- No element looks like the end of the array. -/
def ReadableElements : List Item → Prop
  | [] => True
  | item :: items =>
      Readable item ∧ item.value? vf ≠ some (.int8 TypeCode.NONE) ∧
        ReadableElements items

/-- Every key is a field of the type.  The value of one with a validator is
taken by it, and that of another one is skipped. -/
def ReadableFields (t : EtchType O) : List (Integer × Item) → Prop
  | [] => True
  | (key, item) :: fields =>
      (key.int?.bind t.Fields).isSome ∧
        (match t.known? key.id with
          | some field => Readable item ∧
              ∃ value, item.value? vf = some value ∧ t.Takes field value
          | none => (∃ value, item = .boolean value) ∨
              (Readable item ∧ (item.value? vf).isSome)) ∧
        ReadableFields t fields

end

/-! ## The loop for the elements of an array -/

theorem settles_readValues_end (av : ArrayValue O) (i : Nat) :
    Settles Holds (fun fuel => (calls vf fuel).readValues av i)
      endCode av := by
  have ends : Settles Holds (fun fuel => (calls vf fuel).readValue true)
      endCode (.int8 TypeCode.NONE : Value O) :=
    settles_value vf (.pure _)
  refine Settles.step (ends.bind_nil ?_) fun _ => rfl
  exact .pure _

/-- One pass puts one element. -/
theorem settles_readValues_step {kind : Kind}
    {before after : List (Value O)} {place value converted : Value O}
    {bytes rest : List UInt8} {result : ArrayValue O}
    (reads : Settles Holds (fun fuel => (calls vf fuel).readValue true)
      bytes value)
    (ordinary : value ≠ .int8 TypeCode.NONE)
    (converts : convert vf kind value = some converted)
    (others : Settles Holds
      (fun fuel => (calls vf fuel).readValues
        ⟨some (kind, before ++ converted :: after)⟩ (before.length + 1))
      rest result) :
    Settles Holds
      (fun fuel => (calls vf fuel).readValues
        ⟨some (kind, before ++ place :: after)⟩ before.length)
      (bytes ++ rest) result := by
  have put : ArrayValue.set vf ⟨some (kind, before ++ place :: after)⟩
      before.length value =
        some ⟨some (kind, before ++ converted :: after)⟩ := by
    simp [ArrayValue.set, assign_of_convert vf converts]
  refine Settles.step (reads.bind ?_) fun _ => rfl
  cases value with
  | int8 code =>
      have other : code ≠ TypeCode.NONE := fun same =>
        ordinary (congrArg Value.int8 same)
      simp only [if_neg other, put]
      exact others
  | _ =>
      simp only [put]
      exact others

/-! ## The loop for the fields of a struct -/

theorem settles_readKeysAndValues_stop {sv : StructValue O}
    {stop : List UInt8}
    (stops : Settles Holds (fun fuel => readField (calls vf fuel) sv.Ty)
      stop none) :
    Settles Holds (fun fuel => (calls vf fuel).readKeysAndValues sv)
      stop sv :=
  Settles.step (stops.bind_nil (.pure _)) fun _ => rfl

/-- One pass puts a field that has a validator. -/
theorem settles_readKeysAndValues_put {sv : StructValue O} {key : Integer}
    {field : Field} {value : Value O} {bytes rest : List UInt8}
    {result : StructValue O}
    (found : key.int?.bind sv.Ty.Fields = some field)
    (validated : (sv.Ty.Validators field.Id).isSome)
    (reads : Settles Holds (fun fuel => (calls vf fuel).readValue false)
      bytes value)
    (others : Settles Holds
      (fun fuel => (calls vf fuel).readKeysAndValues (sv.put field value))
      rest result) :
    Settles Holds (fun fuel => (calls vf fuel).readKeysAndValues sv)
      ((key.encode ++ bytes) ++ rest) result := by
  obtain ⟨validate, validated⟩ := Option.isSome_iff_exists.mp validated
  have keyed := settles_readField vf sv.Ty key
  rw [found] at keyed
  rw [List.append_assoc]
  refine Settles.step (keyed.bind ?_) fun _ => rfl
  simp only [validated]
  exact reads.bind others

/-- One pass skips a field that has none. -/
theorem settles_readKeysAndValues_skip {sv : StructValue O} {key : Integer}
    {field : Field} {value : Value O} {bytes rest : List UInt8}
    {result : StructValue O}
    (found : key.int?.bind sv.Ty.Fields = some field)
    (unvalidated : sv.Ty.Validators field.Id = none)
    (reads : Settles Holds (fun fuel => (calls vf fuel).readValue false)
      bytes value)
    (others : Settles Holds
      (fun fuel => (calls vf fuel).readKeysAndValues sv) rest result) :
    Settles Holds (fun fuel => (calls vf fuel).readKeysAndValues sv)
      ((key.encode ++ bytes) ++ rest) result := by
  have keyed := settles_readField vf sv.Ty key
  rw [found] at keyed
  rw [List.append_assoc]
  refine Settles.step (keyed.bind ?_) fun _ => rfl
  simp only [unvalidated]
  exact reads.bind others

/-- A field that is new is added behind the others. -/
theorem put_new {t : EtchType O} {fields : Fields O} {field : Field}
    {value : Value O} (takes : t.Takes field value)
    (fresh : ∀ entry ∈ fields, entry.1 ≠ field) :
    StructValue.put ⟨t, fields⟩ field value =
      ⟨t, fields ++ [(field, value)]⟩ := by
  have set : StructValue.set ⟨t, fields⟩ field value =
      ⟨t, fields ++ [(field, value)]⟩ := by
    rw [StructValue.set, if_neg]
    simp only [List.any_eq_true, decide_eq_true_eq, not_exists, not_and]
    exact fresh
  cases value with
  | nil => exact set
  | _ =>
      obtain ⟨validate, validated, valid⟩ := takes
      simp only [StructValue.put, validated, valid, if_true, set]

/-! ## Items -/

/-- A boolean is read as no value. -/
theorem settles_boolean (noneOk value : Bool) :
    Settles Holds (fun fuel => (calls vf fuel).readValue noneOk)
      (Item.boolean value).encode (.nil : Value O) := by
  cases value with
  | false => exact settles_value vf (.pure _)
  | true => exact settles_value vf (.pure _)

/-- An array is read when its elements are. -/
theorem settles_array {code : Int8} {type : Option Integer}
    {dim length : Integer} {kind : Kind} {elements : List Item}
    {values : List (Value O)} (noneOk : Bool)
    (kinds : kindOf vf code type = some kind) (typed : Typed code type)
    (single : dim.number = 1) (size : length.number = elements.length)
    (small : elements.length < 2 ^ 31)
    (reads : ∀ zero : Value O,
      Settles Holds
        (fun fuel => (calls vf fuel).readValues
          ⟨some (kind, List.replicate elements.length zero)⟩ 0)
        (Item.encodeAll elements ++ endCode) ⟨some (kind, values)⟩) :
    Settles Holds (fun fuel => (calls vf fuel).readValue noneOk)
      (Item.array code type dim length elements).encode
      (.slice kind values) := by
  obtain ⟨zero, starts⟩ :=
    settles_startArray vf kinds typed single size small
  rw [Item.encode]
  refine settles_value vf ?_
  have array : Settles Holds (fun fuel => readArray vf (calls vf fuel)) _
      (some ⟨some (kind, values)⟩) :=
    starts.bind ((reads zero).map some)
  exact array.bind_nil (.pure _)

/-- A struct is read when its fields are. -/
theorem settles_struct {type count : Integer} {t : EtchType O}
    {importValue : Fields O → Value O} {fields : List (Integer × Item)}
    {known : Fields O} (noneOk : Bool)
    (found : type.int?.bind vf.GetTypeById = some t)
    (helper : t.Helper = some importValue)
    (reads : Settles Holds
      (fun fuel => (calls vf fuel).readKeysAndValues ⟨t, []⟩)
      (Item.encodeFields fields ++ endCode) ⟨t, known⟩) :
    Settles Holds (fun fuel => (calls vf fuel).readValue noneOk)
      (Item.struct type count fields).encode (importValue known) := by
  rw [Item.encode]
  refine settles_value vf ?_
  have struct : Settles Holds (fun fuel => readStruct vf (calls vf fuel)) _
      (some ⟨t, known⟩) :=
    (settles_startStruct vf found count).bind (reads.map some)
  refine struct.bind_nil ?_
  simp only [importCustomValue, helper]
  exact .pure _

mutual

theorem settles_item (noneOk : Bool) :
    ∀ {item : Item} {value : Value O}, Readable vf item →
      item.value? vf = some value →
      Settles Holds (fun fuel => (calls vf fuel).readValue noneOk)
        item.encode value
  | .null, _, _, rfl => settles_value vf (.pure _)
  | .boolean _, _, readable, _ => readable.elim
  | .integer integer, _, _, rfl => settles_integer vf noneOk integer
  | .float bits, _, _, rfl =>
      settles_value vf (.of_reads ((reads_readFloat bits).map Value.float32))
  | .double bits, _, _, rfl =>
      settles_value vf (.of_reads ((reads_readDouble bits).map Value.float64))
  | .emptyString, _, _, rfl => settles_value vf (.pure _)
  | .bytes length contents, value, _, known => by
      rw [Item.value?, Option.ite_none_right_eq_some] at known
      obtain ⟨⟨size, small⟩, ⟨⟩⟩ := known
      exact settles_value vf
        ((settles_readBytes vf size small).map Value.bytes)
  | .string length contents, value, _, known => by
      rw [Item.value?, Option.ite_none_right_eq_some] at known
      obtain ⟨⟨size, small⟩, ⟨⟩⟩ := known
      exact settles_value vf
        ((settles_readBytes vf size small).map Value.string)
  | .array code type dim length elements, value, readable, known => by
      rw [Item.value?, Option.ite_none_right_eq_some] at known
      obtain ⟨⟨single, size, small⟩, known⟩ := known
      cases kinds : kindOf vf code type with
      | none =>
          simp only [kinds] at known
          exact nomatch known
      | some kind =>
          simp only [kinds, Option.map_eq_some_iff] at known
          obtain ⟨values, known, rfl⟩ := known
          obtain ⟨typed, readable⟩ := readable
          refine settles_array vf noneOk kinds typed single size small ?_
          intro zero
          exact settles_elements [] readable known List.length_replicate
  | .struct type count fields, value, readable, known => by
      obtain ⟨int, distinct, readable⟩ := readable
      obtain ⟨id, int⟩ := Option.isSome_iff_exists.mp int
      rw [Item.value?] at known
      cases found : vf.GetTypeById type.id with
      | none =>
          simp only [found] at known
          exact nomatch known
      | some t =>
          simp only [found] at known
          cases helper : t.Helper with
          | none =>
              simp only [helper] at known
              exact nomatch known
          | some importValue =>
              simp only [helper, Option.map_eq_some_iff] at known
              obtain ⟨fields, known, rfl⟩ := known
              rw [Integer.id_of_int? int] at found
              have typed : type.int?.bind vf.GetTypeById = some t := by
                rw [int, Option.bind_some, found]
              refine settles_struct vf noneOk typed helper ?_
              refine settles_fields [] (readable t ?_) known distinct ?_
                (settles_readField_end vf t)
              · rw [Integer.id_of_int? int, found]
              · exact nofun

theorem settles_elements {kind : Kind} :
    ∀ {items : List Item} (before : List (Value O))
      {after values : List (Value O)},
      ReadableElements vf items → Item.values? vf kind items = some values →
      after.length = items.length →
      Settles Holds
        (fun fuel => (calls vf fuel).readValues
          ⟨some (kind, before ++ after)⟩ before.length)
        (Item.encodeAll items ++ endCode) ⟨some (kind, before ++ values)⟩
  | [], before, after, values, _, known, size => by
      cases known
      rw [List.length_eq_zero_iff.mp size]
      exact settles_readValues_end vf _ _
  | item :: items, before, after, values, readable, known, size => by
      obtain ⟨readable, ordinary, others⟩ := readable
      obtain ⟨place, after, rfl⟩ := List.exists_cons_of_length_eq_add_one size
      obtain ⟨value, converted, values, given, converts, rest, rfl⟩ :=
        Item.values?_cons vf known
      have later := settles_elements (before ++ [converted]) others rest
        (Nat.succ.inj size)
      rw [List.length_append, List.append_assoc, List.append_assoc] at later
      rw [Item.encodeAll, List.append_assoc]
      refine settles_readValues_step vf (settles_item true readable given)
        ?_ converts later
      rintro rfl
      exact ordinary given

theorem settles_fields {t : EtchType O} :
    ∀ {fields : List (Integer × Item)} (before : Fields O)
      {known : Fields O} {stop : List UInt8}, ReadableFields vf t fields →
      Item.knownFields? vf t fields = some known →
      (fields.map fun field => field.1.id).Nodup →
      (∀ entry ∈ before, ∀ field ∈ fields, entry.1.Id ≠ field.1.id) →
      Settles Holds (fun fuel => readField (calls vf fuel) t) stop none →
      Settles Holds (fun fuel => (calls vf fuel).readKeysAndValues ⟨t, before⟩)
        (Item.encodeFields fields ++ stop) ⟨t, before ++ known⟩
  | [], before, known, stop, _, values, _, _, stops => by
      cases values
      rw [List.append_nil]
      exact settles_readKeysAndValues_stop vf stops
  | (key, item) :: fields, before, known, stop, readable, values, distinct,
      fresh, stops => by
      obtain ⟨found, readable, others⟩ := readable
      obtain ⟨field, found⟩ := Option.isSome_iff_exists.mp found
      obtain ⟨id, int, named⟩ := Option.bind_eq_some_iff.mp found
      obtain ⟨different, distinct⟩ := List.nodup_cons.mp distinct
      rw [Item.encodeFields, List.append_assoc]
      rw [← Integer.id_of_int? int] at named
      have number : field.Id = key.id := t.fields_id _ _ named
      have later (entry) (member : entry ∈ before) :
          ∀ field ∈ fields, entry.1.Id ≠ field.1.id := fun field inside =>
        fresh entry member field (List.mem_cons_of_mem _ inside)
      cases validated : (t.Validators key.id).isSome with
      | true =>
          have known : t.known? key.id = some field := by
            rw [EtchType.known?, if_pos validated, named]
          simp only [known] at readable
          obtain ⟨readable, value, given, takes⟩ := readable
          obtain ⟨value', others', given', rest, rfl⟩ :=
            Item.knownFields?_known vf known values
          cases given.symm.trans given'
          have absent : ∀ entry ∈ before, entry.1 ≠ field := by
            rintro entry member rfl
            exact fresh entry member (key, item) List.mem_cons_self number
          have after := settles_fields (before ++ [(field, value)]) others rest
            distinct ?_ stops
          · rw [List.append_assoc, ← put_new takes absent] at after
            refine settles_readKeysAndValues_put vf found ?_
              (settles_item false readable given) after
            exact number ▸ validated
          · intro entry member
            rcases List.mem_append.mp member with member | member
            · exact later entry member
            · cases List.mem_singleton.mp member
              intro other inside same
              exact different (List.mem_map.mpr
                ⟨other, inside, same.symm.trans number⟩)
      | false =>
          have unknown : t.known? key.id = none := by
            rw [EtchType.known?, validated, if_neg Bool.false_ne_true]
          simp only [unknown] at readable
          rw [Item.knownFields?_unknown vf unknown] at values
          have after := settles_fields before others values distinct later stops
          have unvalidated : t.Validators field.Id = none := by
            rw [number]
            exact Option.not_isSome_iff_eq_none.mp (by simp [validated])
          rcases readable with ⟨value, rfl⟩ | ⟨readable, given⟩
          · exact settles_readKeysAndValues_skip vf found unvalidated
              (settles_boolean vf false value) after
          · obtain ⟨value, given⟩ := Option.isSome_iff_exists.mp given
            exact settles_readKeysAndValues_skip vf found unvalidated
              (settles_item false readable given) after

end

end Calls

end Etch.Go.BinaryTaggedDataInput
