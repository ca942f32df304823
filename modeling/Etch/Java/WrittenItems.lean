import Etch.Java.Encoding

/-!
# What the Java `BinaryTaggedDataOutput` writes

Whatever it has written without throwing is the encoding of an item, which
`Written` relates to the value and the validator.  A factory may answer
differently from call to call, so that the relation only says that it has
answered so once.
-/

namespace Etch.Java

open Etch.Library.Stateful BinaryTaggedData FloatingPoint

namespace BinaryTaggedDataOutput

variable {S α β : Type}

/-! ## Items of values -/

/-- The item of a value that has no others in it. -/
def scalarOf (vf : ValueFactory S) : Value → Option Scalar
  | .null => some .null
  | .NONE => some .none
  | .boolean value => some (.boolean value)
  | .byte value => some (.integer value.toInt64)
  | .short value => some (.integer value.toInt64)
  | .int value => some (.integer value.toInt64)
  | .long value => some (.integer value)
  | .float bits => some (.float (floatToIntBits bits))
  | .double bits => some (.double (doubleToLongBits bits))
  | .string s =>
      if s.length = 0 then some .emptyString
      else some (.string (vf.getBytes s))
  | .array .byte elements => some (.binary (bytesOf elements))
  | _ => none

/-- What is written for a type or a field. -/
def nameOf (vf : ValueFactory S) (stringTypeAndField : Bool)
    (item : IdName) : Scalar :=
  if stringTypeAndField then
    if item.name.length = 0 then .emptyString
    else .string (vf.getBytes item.name)
  else
    .integer item.id.toInt64

/-- The factory has once returned this. -/
def Answers (m : EStateM Thrown S α) (value : α) : Prop :=
  ∃ before after, m before = .ok value after

theorem getNativeTypeCode_ne_struct (c : JavaClass) :
    getNativeTypeCode c ≠ TypeCode.STRUCT := by
  unfold getNativeTypeCode
  split <;> decide

/-- The elements of an array, by their class and their struct type. -/
inductive ArrayType (vf : ValueFactory S) (stringTypeAndField : Bool)
    (v : Option Validator) (c : JavaClass) :
    Option IdName → ElementType → Prop where
  | native (code : getNativeTypeCode c ≠ TypeCode.CUSTOM) :
      ArrayType vf stringTypeAndField v c none
        (.native (getNativeTypeCode c)
          ⟨code, getNativeTypeCode_ne_struct c⟩)
  | custom (type : IdName) (code : getNativeTypeCode c = TypeCode.CUSTOM)
      (found : Answers (vf.getCustomStructType c) (some type)) :
      ArrayType vf stringTypeAndField v c (some type)
        (.custom (nameOf vf stringTypeAndField type))
  | struct (type : IdName) (code : getNativeTypeCode c = TypeCode.CUSTOM)
      (unknown : Answers (vf.getCustomStructType c) none)
      (isStruct : c = .structValue)
      (found : v.bind findStructValueValidator = some type) :
      ArrayType vf stringTypeAndField v c (some type)
        (.custom (nameOf vf stringTypeAndField type))

mutual

/-- A value is written as an item, with a validator. -/
inductive Written (vf : ValueFactory S) (stringTypeAndField : Bool) :
    Option Validator → Value → Item → Prop where
  | scalar {v : Option Validator} {value : Value} {scalar : Scalar}
      (checked : check vf v value = .ok ())
      (is : scalarOf vf value = some scalar) :
      Written vf stringTypeAndField v value (.scalar scalar)
  | array {v : Validator} {ev : Option Validator} {component : JavaClass}
      {type : Option IdName} {elementType : ElementType}
      {elements : List Value} {items : List Item}
      (checked : check vf (some v) (.array component elements) = .ok ())
      (notBytes : component ≠ .byte)
      (typed : ArrayType vf stringTypeAndField (some v) component.base.1
        type elementType)
      (element : v.elementValidator = .ok ev)
      (written : WrittenAll vf stringTypeAndField ev elements items) :
      Written vf stringTypeAndField (some v) (.array component elements)
        (.array elementType (Int32.ofInt (component.base.2 + 1 : Nat))
          items)
  | custom {v : Option Validator} {value : Value} {struct : StructValue}
      {fields : List (Scalar × Item)}
      (checked : check vf v value = .ok ())
      (code : checkValue value = TypeCode.CUSTOM)
      (exported : Answers (vf.exportCustomValue value) (some struct))
      (written : WrittenFields vf stringTypeAndField struct.type
        struct.fields fields) :
      Written vf stringTypeAndField v value
        (.struct (nameOf vf stringTypeAndField struct.type) fields)

inductive WrittenAll (vf : ValueFactory S) (stringTypeAndField : Bool) :
    Option Validator → List Value → List Item → Prop where
  | nil {v : Option Validator} : WrittenAll vf stringTypeAndField v [] []
  | cons {v : Option Validator} {value : Value} {item : Item}
      {values : List Value} {items : List Item}
      (first : Written vf stringTypeAndField v value item)
      (rest : WrittenAll vf stringTypeAndField v values items) :
      WrittenAll vf stringTypeAndField v (value :: values) (item :: items)

inductive WrittenFields (vf : ValueFactory S) (stringTypeAndField : Bool) :
    IdName → List (Field × Value) → List (Scalar × Item) → Prop where
  | nil {t : IdName} : WrittenFields vf stringTypeAndField t [] []
  | cons {t : IdName} {f : Field} {v : Option Validator} {value : Value}
      {item : Item} {entries : List (Field × Value)}
      {fields : List (Scalar × Item)}
      (validator : Answers (vf.getValidator t f) v)
      (first : Written vf stringTypeAndField v value item)
      (rest : WrittenFields vf stringTypeAndField t entries fields) :
      WrittenFields vf stringTypeAndField t ((f, value) :: entries)
        ((nameOf vf stringTypeAndField f, item) :: fields)

end

theorem WrittenAll.length_eq {vf : ValueFactory S} {named : Bool}
    {v : Option Validator} {values : List Value} {items : List Item}
    (written : WrittenAll vf named v values items) :
    values.length = items.length := by
  induction values generalizing items with
  | nil =>
      cases written
      rfl
  | cons value values ih =>
      cases written with
      | cons first rest =>
          rw [List.length_cons, List.length_cons, ih rest]

theorem WrittenFields.length_eq {vf : ValueFactory S} {named : Bool}
    {t : IdName} {entries : List (Field × Value)}
    {fields : List (Scalar × Item)}
    (written : WrittenFields vf named t entries fields) :
    entries.length = fields.length := by
  induction entries generalizing fields with
  | nil =>
      cases written
      rfl
  | cons entry entries ih =>
      cases written with
      | cons validator first rest =>
          rw [List.length_cons, List.length_cons, ih rest]

/-! ## Appending -/

/-- What is returned and appended to a buffer that is at its end. -/
def Emits (m : Writer S α) (shape : α → List UInt8 → Prop) : Prop :=
  ∀ out value after, out.buf.index = out.buf.length →
    m out = .ok value after →
      ∃ bytes, shape value bytes ∧
        after.buf.contents = out.buf.contents ++ bytes ∧
        after.buf.index = after.buf.length

namespace Emits

variable {m : Writer S α} {shape : α → List UInt8 → Prop}

theorem pure (value : α) :
    Emits (Pure.pure value : Writer S α)
      fun value' bytes => value' = value ∧ bytes = [] := by
  intro out value' after atEnd done
  obtain ⟨rfl, rfl⟩ := EStateM.Result.ok.inj done
  exact ⟨[], ⟨rfl, rfl⟩, (List.append_nil _).symm, atEnd⟩

theorem throw (thrown : Thrown) (shape : α → List UInt8 → Prop) :
    Emits (MonadExcept.throw thrown : Writer S α) shape :=
  fun _ _ _ _ done => nomatch done

theorem bind {rest : α → Writer S β} {shape' : α → β → List UInt8 → Prop}
    (first : Emits m shape) (second : ∀ value, Emits (rest value)
      (shape' value)) :
    Emits (m >>= rest) fun result bytes => ∃ value front back,
      shape value front ∧ shape' value result back ∧
        bytes = front ++ back := by
  intro out result after atEnd done
  obtain ⟨value, middle, did, rest⟩ := bind_eq_ok_iff.mp done
  obtain ⟨front, shaped, contents, atEnd⟩ := first _ _ _ atEnd did
  obtain ⟨back, shaped', contents', atEnd⟩ := second value _ _ _ atEnd rest
  refine ⟨front ++ back, ⟨value, front, back, shaped, shaped', rfl⟩, ?_,
    atEnd⟩
  rw [contents', contents, List.append_assoc]

theorem mono {shape' : α → List UInt8 → Prop} (emits : Emits m shape)
    (weaker : ∀ value bytes, shape value bytes → shape' value bytes) :
    Emits m shape' := by
  intro out value after atEnd done
  obtain ⟨bytes, shaped, rest⟩ := emits out value after atEnd done
  exact ⟨bytes, weaker value bytes shaped, rest⟩

theorem call (m : EStateM Thrown S α) :
    Emits (BinaryTaggedDataOutput.call m) fun value bytes =>
      Answers m value ∧ bytes = [] := by
  intro out value after atEnd done
  dsimp only [BinaryTaggedDataOutput.call] at done
  cases answer : m out.factory with
  | ok value' factory =>
      rw [answer] at done
      obtain ⟨rfl, rfl⟩ := EStateM.Result.ok.inj done
      exact ⟨[], ⟨⟨_, _, answer⟩, rfl⟩, (List.append_nil _).symm, atEnd⟩
  | error thrown factory =>
      rw [answer] at done
      exact nomatch done

theorem throwing (result : Except Thrown α) :
    Emits (BinaryTaggedDataOutput.throwing result : Writer S α)
      fun value bytes => result = .ok value ∧ bytes = [] := by
  cases result with
  | error thrown => exact throw thrown _
  | ok value =>
      refine (pure value).mono ?_
      rintro _ _ ⟨rfl, rfl⟩
      exact ⟨rfl, rfl⟩

/-- A call of the buffer that appends. -/
theorem put {op : FlexBuffer → Except Exception FlexBuffer}
    {bytes : List UInt8}
    (appends : ∀ buf next, buf.index = buf.length → op buf = .ok next →
      next.index = next.length ∧ next.contents = buf.contents ++ bytes) :
    Emits (BinaryTaggedDataOutput.put op : Writer S Unit)
      fun _ emitted => emitted = bytes := by
  intro out value after atEnd done
  dsimp only [BinaryTaggedDataOutput.put] at done
  cases result : op out.buf with
  | ok buf =>
      rw [result] at done
      obtain ⟨_, rfl⟩ := EStateM.Result.ok.inj done
      obtain ⟨atEnd', contents⟩ := appends _ _ atEnd result
      exact ⟨bytes, rfl, contents, atEnd'⟩
  | error exception =>
      rw [result] at done
      exact nomatch done

theorem putNumber (size : Nat) (value : Int) :
    Emits (BinaryTaggedDataOutput.put fun buf => buf.putNumber size value :
      Writer S Unit)
      fun _ bytes => bytes = FlexBuffer.numberBytes size value :=
  put fun _ _ atEnd done => FlexBuffer.putBytes_appends atEnd done

theorem putByte (value : Int8) :
    Emits (BinaryTaggedDataOutput.put fun buf => buf.putByte value.toInt :
      Writer S Unit)
      fun _ bytes => bytes = [value.toUInt8] := by
  refine (putNumber 1 value.toInt).mono ?_
  rintro _ _ rfl
  exact FlexBuffer.numberBytes_one value

end Emits

/-! ## Integers -/

/-- The code of an integer of any class. -/
def integerCode (number : Int) : Int8 :=
  if -64 ≤ number ∧ number ≤ 127 then Int8.ofInt number
  else if -128 ≤ number ∧ number ≤ 127 then TypeCode.BYTE
  else if -32768 ≤ number ∧ number ≤ 32767 then TypeCode.SHORT
  else if -2147483648 ≤ number ∧ number ≤ 2147483647 then TypeCode.INT
  else TypeCode.LONG

theorem tiny_iff {v : Int8} :
    (v ≥ TypeCode.MIN_TINY_INT ∧ v ≤ TypeCode.MAX_TINY_INT) ↔
      (-64 ≤ v.toInt ∧ v.toInt ≤ 127) := by
  rw [ge_iff_le, Int8.le_iff_toInt_le, Int8.le_iff_toInt_le]
  rfl

theorem checkByte_eq (v : Int8) : checkByte v = integerCode v.toInt := by
  have lower := v.le_toInt
  have upper := v.toInt_lt
  unfold checkByte integerCode
  rw [Int8.ofInt_toInt]
  by_cases tiny : -64 ≤ v.toInt ∧ v.toInt ≤ 127
  · rw [if_pos (tiny_iff.mpr tiny), if_pos tiny]
  · rw [if_neg (mt tiny_iff.mp tiny), if_neg tiny, if_pos (by omega)]

theorem checkShort_eq (v : Int16) : checkShort v = integerCode v.toInt := by
  have lower := v.le_toInt
  have upper := v.toInt_lt
  have byte_iff : (v ≥ -128 ∧ v ≤ 127) ↔
      (-128 ≤ v.toInt ∧ v.toInt ≤ 127) := by
    rw [ge_iff_le, Int16.le_iff_toInt_le, Int16.le_iff_toInt_le]
    rfl
  unfold checkShort
  by_cases byte : -128 ≤ v.toInt ∧ v.toInt ≤ 127
  · have same : v.toInt8.toInt = v.toInt := by
      rw [Int16.toInt_toInt8, Int.bmod_eq_of_le_mul_two] <;> omega
    rw [if_pos (byte_iff.mpr byte), checkByte_eq, same]
  · rw [if_neg (mt byte_iff.mp byte), integerCode, if_neg (by omega),
      if_neg byte, if_pos (by omega)]

theorem checkInteger_eq (v : Int32) :
    checkInteger v = integerCode v.toInt := by
  have lower := v.le_toInt
  have upper := v.toInt_lt
  have short_iff : (v ≥ -32768 ∧ v ≤ 32767) ↔
      (-32768 ≤ v.toInt ∧ v.toInt ≤ 32767) := by
    rw [ge_iff_le, Int32.le_iff_toInt_le, Int32.le_iff_toInt_le]
    rfl
  unfold checkInteger
  by_cases short : -32768 ≤ v.toInt ∧ v.toInt ≤ 32767
  · have same : v.toInt16.toInt = v.toInt := by
      rw [Int32.toInt_toInt16, Int.bmod_eq_of_le_mul_two] <;> omega
    rw [if_pos (short_iff.mpr short), checkShort_eq, same]
  · rw [if_neg (mt short_iff.mp short), integerCode, if_neg (by omega),
      if_neg (by omega), if_neg short, if_pos (by omega)]

theorem checkLong_eq (v : Int64) : checkLong v = integerCode v.toInt := by
  have int_iff : (v ≥ -2147483648 ∧ v ≤ 2147483647) ↔
      (-2147483648 ≤ v.toInt ∧ v.toInt ≤ 2147483647) := by
    rw [ge_iff_le, Int64.le_iff_toInt_le, Int64.le_iff_toInt_le]
    rfl
  unfold checkLong
  by_cases int : -2147483648 ≤ v.toInt ∧ v.toInt ≤ 2147483647
  · have same : v.toInt32.toInt = v.toInt := by
      rw [Int64.toInt_toInt32, Int.bmod_eq_of_le_mul_two] <;> omega
    rw [if_pos (int_iff.mpr int), checkInteger_eq, same]
  · rw [if_neg (mt int_iff.mp int), integerCode, if_neg (by omega),
      if_neg (by omega), if_neg (by omega), if_neg int]

/-- An integer has the code of its number. -/
theorem checkValue_integer {value : Value} {number : Int}
    (is : value.integer? = some number) :
    checkValue value = integerCode number := by
  cases value with
  | byte v =>
      obtain rfl := Option.some.inj is
      exact checkByte_eq v
  | short v =>
      obtain rfl := Option.some.inj is
      exact checkShort_eq v
  | int v =>
      obtain rfl := Option.some.inj is
      exact checkInteger_eq v
  | long v =>
      obtain rfl := Option.some.inj is
      exact checkLong_eq v
  | _ => exact nomatch is

/-- A code of a tiny integer is none of the others. -/
theorem integerCode_tiny {number : Int}
    (tiny : -64 ≤ number ∧ number ≤ 127) :
    integerCode number = Int8.ofInt number ∧
      (integerCode number).toInt = number := by
  have code : integerCode number = Int8.ofInt number := if_pos tiny
  refine ⟨code, ?_⟩
  rw [code]
  exact Int8.toInt_ofInt_of_le (by omega) (by omega)

theorem integerCode_ne_custom (number : Int) :
    integerCode number ≠ TypeCode.CUSTOM := by
  by_cases tiny : -64 ≤ number ∧ number ≤ 127
  · intro same
    have value := (integerCode_tiny tiny).2
    rw [same] at value
    have custom : TypeCode.CUSTOM.toInt = -107 := by decide
    omega
  · unfold integerCode
    rw [if_neg tiny]
    split_ifs <;> decide

section Payload

variable {vf : ValueFactory S} {named : Bool}
  {write : Option Validator → Value → Writer S Unit}

/-- Nothing follows the code of a tiny integer. -/
theorem writePayload_tiny {code : Int8} (tiny : -64 ≤ code.toInt)
    (v : Option Validator) (value : Value) :
    writePayload vf named write code v value = Pure.pure () := by
  have other {c : Int8} (below : c.toInt < -64) : code ≠ c := by
    rintro rfl
    omega
  have isTiny : code ≥ TypeCode.MIN_TINY_INT ∧ code ≤ TypeCode.MAX_TINY_INT :=
    tiny_iff.mpr ⟨tiny, Int.le_of_lt_add_one code.toInt_lt⟩
  unfold writePayload
  rw [if_neg, if_neg (other (by decide)), if_neg (other (by decide)),
    if_neg (other (by decide)), if_neg (other (by decide)),
    if_neg (other (by decide)), if_neg (other (by decide)),
    if_neg (other (by decide)), if_neg (other (by decide)),
    if_neg (other (by decide)), if_neg (other (by decide)),
    if_pos isTiny]
  simp only [other (by decide : TypeCode.NULL.toInt < -64),
    other (by decide : TypeCode.NONE.toInt < -64),
    other (by decide : TypeCode.BOOLEAN_FALSE.toInt < -64),
    other (by decide : TypeCode.BOOLEAN_TRUE.toInt < -64),
    other (by decide : TypeCode.EMPTY_STRING.toInt < -64), or_self,
    not_false_eq_true]

omit vf named write in
theorem number_integer {value : Value} {number : Int}
    (is : value.integer? = some number) :
    (BinaryTaggedDataOutput.number value : Writer S Int) =
      Pure.pure number := by
  unfold BinaryTaggedDataOutput.number
  cases value with
  | null => exact nomatch is
  | _ =>
      dsimp only
      rw [is]

/-- What follows the code of a number. -/
theorem emits_number {value : Value} {number : Int}
    (is : value.integer? = some number) (size : Nat) :
    Emits (do
      let n ← BinaryTaggedDataOutput.number value
      BinaryTaggedDataOutput.put fun buf => buf.putNumber size n :
        Writer S Unit)
      fun _ bytes => bytes = FlexBuffer.numberBytes size number := by
  rw [number_integer is, pure_bind]
  exact Emits.putNumber size number

/-- A code, and then what follows it. -/
theorem emits_coded {code : Int8} {payload : Writer S Unit}
    {shape : List UInt8 → Prop}
    (follows : Emits payload fun _ bytes => shape bytes) :
    Emits (do
      BinaryTaggedDataOutput.put fun buf => buf.putByte code.toInt
      payload)
      fun _ bytes => ∃ rest, shape rest ∧ bytes = code.toUInt8 :: rest := by
  refine ((Emits.putByte code).bind fun _ => follows).mono ?_
  rintro _ _ ⟨_, _, rest, rfl, shaped, rfl⟩
  exact ⟨rest, shaped, rfl⟩

/-- An integer is written at its least width. -/
theorem emits_integer {value : Value} {number : Int}
    (is : value.integer? = some number) (v : Option Validator) :
    Emits (do
      BinaryTaggedDataOutput.put fun buf =>
        buf.putByte (integerCode number).toInt
      writePayload vf named write (integerCode number) v value)
      fun _ bytes => bytes = Scalar.integerBytes number := by
  by_cases tiny : -64 ≤ number ∧ number ≤ 127
  · have toInt := (integerCode_tiny tiny).2
    rw [writePayload_tiny (by omega)]
    have nothing : Emits (Pure.pure () : Writer S Unit)
        fun _ bytes => bytes = [] :=
      (Emits.pure ()).mono fun _ _ => And.right
    refine (emits_coded nothing).mono ?_
    rintro _ _ ⟨_, rfl, rfl⟩
    have byte := FlexBuffer.numberBytes_one (integerCode number)
    rw [toInt] at byte
    rw [Scalar.integerBytes, if_pos tiny, byte]
  · unfold integerCode Scalar.integerBytes
    rw [if_neg tiny, if_neg tiny]
    split_ifs
    · refine (emits_coded (emits_number is 1)).mono ?_
      rintro _ _ ⟨_, rfl, rfl⟩
      rfl
    · refine (emits_coded (emits_number is 2)).mono ?_
      rintro _ _ ⟨_, rfl, rfl⟩
      rfl
    · refine (emits_coded (emits_number is 4)).mono ?_
      rintro _ _ ⟨_, rfl, rfl⟩
      rfl
    · refine (emits_coded (emits_number is 8)).mono ?_
      rintro _ _ ⟨_, rfl, rfl⟩
      rfl

/-! ## Parts of an item -/

/-- What is written for a value with other items in it is not a scalar. -/
theorem checkValue_ne_custom {value : Value} {scalar : Scalar}
    (is : scalarOf vf value = some scalar) :
    checkValue value ≠ TypeCode.CUSTOM := by
  have integer {value : Value} {number : Int}
      (is : value.integer? = some number) :
      checkValue value ≠ TypeCode.CUSTOM := by
    rw [checkValue_integer is]
    exact integerCode_ne_custom number
  cases value with
  | boolean value => cases value <;> decide
  | byte v => exact integer rfl
  | short v => exact integer rfl
  | int v => exact integer rfl
  | long v => exact integer rfl
  | string s =>
      unfold checkValue
      dsimp only
      split_ifs <;> decide
  | array component elements =>
      cases component with
      | byte => exact (by decide : TypeCode.BYTES ≠ TypeCode.CUSTOM)
      | _ => exact nomatch is
  | float bits => exact (by decide : TypeCode.FLOAT ≠ TypeCode.CUSTOM)
  | double bits => exact (by decide : TypeCode.DOUBLE ≠ TypeCode.CUSTOM)
  | struct type fields => exact nomatch is
  | custom clss state => exact nomatch is
  | _ => decide

theorem Written.scalar_eq {v : Option Validator} {value : Value}
    {item : Item} {scalar : Scalar}
    (written : Written vf named v value item)
    (is : scalarOf vf value = some scalar) : item = .scalar scalar := by
  cases written with
  | scalar checked is' =>
      obtain rfl := Option.some.inj (is.symm.trans is')
      rfl
  | @array v ev component type elementType elements items checked notBytes =>
      cases component with
      | byte => exact absurd rfl notBytes
      | _ => exact nomatch is
  | custom checked code => exact absurd code (checkValue_ne_custom is)

/-- What `writeValue` has written without throwing. -/
def Writes (vf : ValueFactory S) (named : Bool)
    (write : Option Validator → Value → Writer S Unit) : Prop :=
  ∀ v value, Emits (write v value) fun _ bytes =>
    ∃ item, Written vf named v value item ∧ bytes = item.encode

variable (writes : Writes vf named write)

include writes

theorem Writes.scalar (v : Option Validator) {value : Value}
    {scalar : Scalar} (is : scalarOf vf value = some scalar) :
    Emits (write v value) fun _ bytes => bytes = scalar.encode := by
  refine (writes v value).mono ?_
  rintro _ _ ⟨item, written, rfl⟩
  rw [written.scalar_eq is]
  rfl

theorem Writes.int (value : Int32) :
    Emits (writeIntValue write value) fun _ bytes =>
      bytes = Scalar.integerBytes value.toInt := by
  have is : scalarOf vf (.int value) = some (.integer value.toInt64) := rfl
  refine (writes.scalar _ is).mono ?_
  rintro _ _ rfl
  rw [Scalar.encode, Int32.toInt_toInt64]

theorem Writes.none :
    Emits (writeNoneValue write) fun _ bytes =>
      bytes = Scalar.none.encode :=
  writes.scalar _ rfl

theorem Writes.name (item : IdName) :
    Emits (if named then writeStringValue write item.name
      else writeIntValue write item.id) fun _ bytes =>
        bytes = (nameOf vf named item).encode := by
  cases named with
  | true =>
      refine writes.scalar _ ?_
      rw [nameOf, if_pos rfl, scalarOf]
      split_ifs <;> rfl
  | false => exact writes.scalar _ rfl

theorem Writes.bytes (contents : List UInt8) :
    Emits (writeBytes write contents) fun _ bytes =>
      bytes = Scalar.lengthBytes contents.length ++ contents := by
  refine ((writes.int _).bind fun _ => Emits.put fun buf next atEnd done =>
    FlexBuffer.putArray_appends atEnd done).mono ?_
  rintro _ _ ⟨_, _, _, rfl, rfl, rfl⟩
  rw [List.take_length]
  rfl

/-! ## Structs and arrays -/

theorem Writes.startStruct (struct : StructValue) :
    Emits (startStruct named write struct) fun _ bytes =>
      bytes = (nameOf vf named struct.type).encode ++
        Scalar.lengthBytes struct.fields.length := by
  refine ((writes.name struct.type).bind fun _ => writes.int _).mono ?_
  rintro _ _ ⟨_, _, _, rfl, rfl, rfl⟩
  rfl

theorem Writes.keysAndValues (t : IdName) (entries : List (Field × Value)) :
    Emits (writeKeysAndValues vf named write t entries) fun _ bytes =>
      ∃ fields, WrittenFields vf named t entries fields ∧
        bytes = Item.encodeFields fields := by
  induction entries with
  | nil =>
      refine (Emits.pure ()).mono ?_
      rintro _ _ ⟨_, rfl⟩
      exact ⟨[], .nil, rfl⟩
  | cons entry entries ih =>
      obtain ⟨f, value⟩ := entry
      refine ((writes.name f).bind fun _ =>
        (Emits.call (vf.getValidator t f)).bind fun v =>
          (writes v value).bind fun _ => ih).mono ?_
      rintro _ _ ⟨_, _, _, rfl, ⟨v, _, _, ⟨answers, rfl⟩, ⟨_, _, _,
        ⟨item, written, rfl⟩, ⟨fields, rest, rfl⟩, rfl⟩, rfl⟩, rfl⟩
      exact ⟨(nameOf vf named f, item) :: fields,
        .cons answers written rest, rfl⟩

theorem Writes.struct (struct : StructValue) :
    Emits (writeStruct vf named write struct) fun _ bytes =>
      ∃ fields,
        WrittenFields vf named struct.type struct.fields fields ∧
          bytes = (nameOf vf named struct.type).encode ++
            (Scalar.lengthBytes fields.length ++
              (Item.encodeFields fields ++ Scalar.none.encode)) := by
  refine ((writes.startStruct struct).bind fun _ =>
    (writes.keysAndValues struct.type struct.fields).bind fun _ =>
      writes.none).mono ?_
  rintro _ _ ⟨_, _, _, rfl, ⟨_, _, _, ⟨fields, written, rfl⟩, rfl, rfl⟩,
    rfl⟩
  refine ⟨fields, written, ?_⟩
  rw [written.length_eq, List.append_assoc]

theorem Writes.values (v : Option Validator) (values : List Value) :
    Emits (writeValues write v values) fun _ bytes =>
      ∃ items, WrittenAll vf named v values items ∧
        bytes = Item.encodeAll items := by
  induction values with
  | nil =>
      refine (Emits.pure ()).mono ?_
      rintro _ _ ⟨_, rfl⟩
      exact ⟨[], .nil, rfl⟩
  | cons value values ih =>
      refine ((writes v value).bind fun _ => ih).mono ?_
      rintro _ _ ⟨_, _, _, ⟨item, written, rfl⟩, ⟨items, rest, rfl⟩, rfl⟩
      exact ⟨item :: items, .cons written rest, rfl⟩

/-- The header of an array has a type if its elements are structs. -/
theorem Writes.startArray {v : Option Validator} {component : JavaClass}
    {type : Option IdName} {elementType : ElementType} (c : JavaClass)
    (typed : ArrayType vf named v c type elementType)
    (elements : List Value) (dim : Int) :
    Emits (startArray named write
      ⟨component, elements, getNativeTypeCode c, type, dim⟩) fun _ bytes =>
        bytes = elementType.encode ++
          (Scalar.integerBytes (Int32.ofInt dim).toInt ++
            Scalar.lengthBytes elements.length) := by
  have lengths : Emits (do
      writeIntValue write (Int32.ofInt dim)
      writeIntValue write (Int32.ofNat elements.length))
      fun _ bytes => bytes =
        Scalar.integerBytes (Int32.ofInt dim).toInt ++
          Scalar.lengthBytes elements.length := by
    refine ((writes.int _).bind fun _ => writes.int _).mono ?_
    rintro _ _ ⟨_, _, _, rfl, rfl, rfl⟩
    rfl
  have named (type : IdName) (code : getNativeTypeCode c = TypeCode.CUSTOM) :
      Emits (BinaryTaggedDataOutput.startArray named write
        ⟨component, elements, getNativeTypeCode c, some type, dim⟩)
        fun _ bytes =>
          bytes = (ElementType.custom (nameOf vf named type)).encode ++
            (Scalar.integerBytes (Int32.ofInt dim).toInt ++
              Scalar.lengthBytes elements.length) := by
    unfold BinaryTaggedDataOutput.startArray
    rw [if_pos code]
    refine ((Emits.putByte _).bind fun _ =>
      (writes.name type).bind fun _ => lengths).mono ?_
    rintro _ _ ⟨_, _, _, rfl, ⟨_, _, _, rfl, rfl, rfl⟩, rfl⟩
    dsimp only
    rw [code]
    rfl
  cases typed with
  | native code =>
      unfold BinaryTaggedDataOutput.startArray
      rw [if_neg code]
      refine ((Emits.putByte _).bind fun _ =>
        (Emits.pure ()).bind fun _ => lengths).mono ?_
      rintro _ _ ⟨_, _, _, rfl, ⟨_, _, _, ⟨_, rfl⟩, rfl, rfl⟩, rfl⟩
      rfl
  | custom type code => exact named type code
  | struct type code => exact named type code

omit writes in
theorem emits_toArrayValue (named : Bool) (component : JavaClass)
    (elements : List Value) (v : Option Validator) :
    Emits (toArrayValue vf component elements v : Writer S ArrayValue)
      fun av bytes => bytes = [] ∧ ∃ type elementType,
        ArrayType vf named v component.base.1 type elementType ∧
          av = ⟨component, elements, getNativeTypeCode component.base.1,
            type, (component.base.2 + 1 : Nat)⟩ := by
  unfold toArrayValue
  dsimp only
  by_cases code : getNativeTypeCode component.base.1 = TypeCode.CUSTOM
  · rw [if_pos (Or.inl code)]
    intro out av after atEnd done
    obtain ⟨found, middle, did, rest⟩ := bind_eq_ok_iff.mp done
    obtain ⟨_, ⟨answers, rfl⟩, same⟩ := Emits.call _ _ _ _ atEnd did
    cases found with
    | some type =>
        obtain ⟨rfl, rfl⟩ := EStateM.Result.ok.inj rest
        exact ⟨[], ⟨rfl, some type, _, .custom type code answers, rfl⟩, same⟩
    | none =>
        by_cases isStruct : component.base.1 = .structValue
        · dsimp only at rest
          rw [if_pos isStruct] at rest
          cases found : v.bind findStructValueValidator with
          | none =>
              rw [found] at rest
              exact nomatch rest
          | some type =>
              rw [found] at rest
              obtain ⟨rfl, rfl⟩ := EStateM.Result.ok.inj rest
              exact ⟨[], ⟨rfl, some type, _,
                .struct type code answers isStruct found, rfl⟩, same⟩
        · dsimp only at rest
          rw [if_neg isStruct] at rest
          exact nomatch rest
  · rw [if_neg (not_or.mpr ⟨code, getNativeTypeCode_ne_struct _⟩)]
    refine (Emits.pure _).mono ?_
    rintro _ _ ⟨rfl, rfl⟩
    exact ⟨rfl, none, _, .native code, rfl⟩

theorem Writes.array (component : JavaClass) (elements : List Value)
    (v : Option Validator) :
    Emits (do
      let av ← toArrayValue vf component elements v
      writeArray named write av v) fun _ bytes =>
        ∃ w ev type elementType items, v = some w ∧
          w.elementValidator = .ok ev ∧
          ArrayType vf named v component.base.1 type elementType ∧
          WrittenAll vf named ev elements items ∧
          TypeCode.ARRAY.toUInt8 :: bytes =
            (Item.array elementType
              (Int32.ofInt (component.base.2 + 1 : Nat)) items).encode := by
  intro out _ after atEnd done
  obtain ⟨av, middle, did, rest⟩ := bind_eq_ok_iff.mp done
  obtain ⟨_, ⟨rfl, type, elementType, typed, rfl⟩, contents, atEnd⟩ :=
    emits_toArrayValue named component elements v _ _ _ atEnd did
  rw [List.append_nil] at contents
  obtain ⟨_, middle', did, rest⟩ := bind_eq_ok_iff.mp rest
  obtain ⟨_, rfl, contents', atEnd⟩ :=
    writes.startArray _ typed _ _ _ _ _ atEnd did
  cases v with
  | none => exact nomatch rest
  | some w =>
      dsimp only at rest
      have values : Emits (do
          let ev ← BinaryTaggedDataOutput.throwing w.elementValidator
          writeValues write ev elements
          endArray write) fun _ bytes =>
            ∃ ev items, w.elementValidator = .ok ev ∧
              WrittenAll vf named ev elements items ∧
              bytes = Item.encodeAll items ++ Scalar.none.encode := by
        refine ((Emits.throwing w.elementValidator).bind fun ev =>
          (writes.values ev elements).bind fun _ => writes.none).mono ?_
        rintro _ _ ⟨ev, _, _, ⟨element, rfl⟩, ⟨_, _, _,
          ⟨items, written, rfl⟩, rfl, rfl⟩, rfl⟩
        exact ⟨ev, items, element, written, rfl⟩
      obtain ⟨_, ⟨ev, items, element, written, rfl⟩, contents'', atEnd⟩ :=
        values _ _ _ atEnd rest
      refine ⟨_, ⟨w, ev, type, elementType, items, rfl, element, typed,
        written, ?_⟩,
        by rw [contents'', contents', contents, List.append_assoc], atEnd⟩
      rw [Item.encode, ← written.length_eq]
      simp only [List.append_assoc]

/-- A value is written as an item, where the values in it are. -/
theorem Writes.body :
    Writes vf named (writeValueBody vf named write) := by
  intro v value out _ after atEnd done
  obtain ⟨_, middle, did, rest⟩ := bind_eq_ok_iff.mp done
  obtain ⟨_, ⟨checked, rfl⟩, contents, atEnd⟩ :=
    Emits.throwing _ _ _ _ atEnd did
  rw [List.append_nil] at contents
  rw [← contents]
  have scalar {s : Scalar} (is : scalarOf vf value = some s)
      (emits : Emits (do
        BinaryTaggedDataOutput.put fun buf =>
          buf.putByte (checkValue value).toInt
        writePayload vf named write (checkValue value) v value)
        fun _ bytes => bytes = s.encode) :
      ∃ bytes, (∃ item, Written vf named v value item ∧
          bytes = item.encode) ∧
        after.buf.contents = middle.buf.contents ++ bytes ∧
        after.buf.index = after.buf.length := by
    obtain ⟨_, rfl, same⟩ := emits _ _ _ atEnd rest
    exact ⟨_, ⟨.scalar s, .scalar checked is, rfl⟩, same⟩
  have integer {n : Int64} (is : value.integer? = some n.toInt)
      (is' : scalarOf vf value = some (.integer n)) :
      ∃ bytes, (∃ item, Written vf named v value item ∧
          bytes = item.encode) ∧
        after.buf.contents = middle.buf.contents ++ bytes ∧
        after.buf.index = after.buf.length := by
    refine scalar is' ?_
    rw [checkValue_integer is]
    exact emits_integer is v
  have plain {s : Scalar} {code : Int8}
      (is : scalarOf vf value = some s) (coded : checkValue value = code)
      (single : s.encode = [code.toUInt8])
      (nothing : writePayload vf named write code v value =
        Pure.pure ()) :
      ∃ bytes, (∃ item, Written vf named v value item ∧
          bytes = item.encode) ∧
        after.buf.contents = middle.buf.contents ++ bytes ∧
        after.buf.index = after.buf.length := by
    refine scalar is ?_
    rw [coded, nothing, single]
    have empty : Emits (Pure.pure () : Writer S Unit)
        fun _ bytes => bytes = [] :=
      (Emits.pure ()).mono fun _ _ => And.right
    refine (emits_coded empty).mono ?_
    rintro _ _ ⟨_, rfl, rfl⟩
    rfl
  have custom (code : checkValue value = TypeCode.CUSTOM) :
      ∃ bytes, (∃ item, Written vf named v value item ∧
          bytes = item.encode) ∧
        after.buf.contents = middle.buf.contents ++ bytes ∧
        after.buf.index = after.buf.length := by
    rw [code] at rest
    obtain ⟨_, coded, did, rest⟩ := bind_eq_ok_iff.mp rest
    obtain ⟨_, rfl, first, atEnd⟩ :=
      Emits.putByte TypeCode.CUSTOM _ _ _ atEnd did
    obtain ⟨struct, called, did, rest⟩ := bind_eq_ok_iff.mp rest
    obtain ⟨_, ⟨exported, rfl⟩, second, atEnd⟩ :=
      Emits.call _ _ _ _ atEnd did
    rw [List.append_nil] at second
    cases struct with
    | none => exact nomatch rest
    | some struct =>
        obtain ⟨_, ⟨fields, written, rfl⟩, third, atEnd⟩ :=
          writes.struct struct _ _ _ atEnd rest
        refine ⟨_, ⟨_, .custom checked code exported written, rfl⟩, ?_,
          atEnd⟩
        rw [third, second, first, List.append_assoc]
        rfl
  cases value with
  | null => exact plain rfl rfl rfl rfl
  | NONE => exact plain rfl rfl rfl rfl
  | boolean value =>
      cases value
      · exact plain rfl rfl rfl rfl
      · exact plain rfl rfl rfl rfl
  | byte value =>
      exact integer (congrArg some value.toInt_toInt64.symm) rfl
  | short value =>
      exact integer (congrArg some value.toInt_toInt64.symm) rfl
  | int value =>
      exact integer (congrArg some value.toInt_toInt64.symm) rfl
  | long value => exact integer rfl rfl
  | float bits =>
      have code : checkValue (.float bits) = TypeCode.FLOAT := rfl
      refine scalar rfl ?_
      rw [code]
      refine (emits_coded
        (Emits.putNumber 4 (floatToIntBits bits).toNat)).mono ?_
      rintro _ _ ⟨_, rfl, rfl⟩
      rfl
  | double bits =>
      have code : checkValue (.double bits) = TypeCode.DOUBLE := rfl
      refine scalar rfl ?_
      rw [code]
      refine (emits_coded
        (Emits.putNumber 8 (doubleToLongBits bits).toNat)).mono ?_
      rintro _ _ ⟨_, rfl, rfl⟩
      rfl
  | string s =>
      by_cases empty : s.length = 0
      · refine plain (if_pos empty) (if_pos empty) rfl rfl
      · refine scalar (if_neg empty) ?_
        have code : checkValue (.string s) = TypeCode.STRING :=
          if_neg empty
        rw [code]
        refine (emits_coded (writes.bytes _)).mono ?_
        rintro _ _ ⟨_, rfl, rfl⟩
        rfl
  | array component elements =>
      by_cases bytes : component = .byte
      · subst bytes
        refine scalar rfl ((emits_coded (writes.bytes _)).mono ?_)
        rintro _ _ ⟨_, rfl, rfl⟩
        rfl
      · have code : checkValue (.array component elements) =
            TypeCode.ARRAY := by
          cases component with
          | byte => exact absurd rfl bytes
          | _ => rfl
        rw [code] at rest
        obtain ⟨_, ⟨_, ⟨w, ev, type, elementType, items, rfl, element,
          typed, written, whole⟩, rfl⟩, same⟩ := emits_coded
            (writes.array component elements v) _ _ _ atEnd rest
        exact ⟨_, ⟨_, .array checked bytes typed element written, whole⟩,
          same⟩
  | struct type fields => exact custom rfl
  | custom clss state => exact custom rfl

end Payload

/-- What has been written for a value is the encoding of its item. -/
theorem writes_writeValue (vf : ValueFactory S) (named : Bool)
    (depth : Nat) : Writes vf named (writeValue vf named depth) := by
  induction depth with
  | zero => exact fun _ _ => Emits.throw _ _
  | succ depth ih => exact ih.body

/-- What has been written for a message. -/
theorem writeMessage_emits (vf : ValueFactory S) (named : Bool)
    (depth : Nat) (msg : StructValue) :
    Emits (writeMessage vf named depth msg) fun _ bytes =>
      ∃ fields, WrittenFields vf named msg.type msg.fields fields ∧
        bytes = encodeMessage (nameOf vf named msg.type) fields := by
  have writes := writes_writeValue vf named depth
  refine ((Emits.putByte VERSION).bind fun _ =>
    (writes.struct msg)).mono ?_
  rintro _ _ ⟨_, _, _, rfl, ⟨fields, written, rfl⟩, rfl⟩
  exact ⟨fields, written, rfl⟩

end BinaryTaggedDataOutput

end Etch.Java
