import Etch.Go.BinaryTaggedData

/-!
# Encoded messages, and what they are to a Go receiver

An integer may be written at any width that it has room in, and so may the
ids of types and fields.  A receiver knows some types, and some fields of
these; the value of an item has the fields that it knows.
-/

namespace Etch.Go

open Etch.Library.BigEndian

/-! ## Integers -/

/-- An integer as it is encoded. -/
inductive Integer where
  | tiny (value : Int8) (small : TypeCode.MIN_TINY_INT ≤ value)
  | byte (value : Int8)
  | short (value : Int16)
  | int (value : Int32)
  | long (value : Int64)

namespace Integer

def encode : Integer → List UInt8
  | tiny value _ => [value.toUInt8]
  | byte value => [TypeCode.BYTE.toUInt8, value.toUInt8]
  | short value => TypeCode.SHORT.toUInt8 :: toBytes 2 value.toUInt16.toNat
  | int value => TypeCode.INT.toUInt8 :: toBytes 4 value.toUInt32.toNat
  | long value => TypeCode.LONG.toUInt8 :: toBytes 8 value.toUInt64.toNat

def number : Integer → Int
  | tiny value _ => value.toInt
  | byte value => value.toInt
  | short value => value.toInt
  | int value => value.toInt
  | long value => value.toInt

/-- The integer as an id. -/
def id (integer : Integer) : Int32 :=
  Int32.ofInt integer.number

/-- The number of an `INT`. -/
def int? : Integer → Option Int32
  | int value => some value
  | _ => none

/-- The integer as a value of the width that it is encoded at. -/
def value {O : Type} : Integer → Value O
  | tiny value _ => .int8 value
  | byte value => .int8 value
  | short value => .int16 value
  | int value => .int32 value
  | long value => .int64 value

theorem integer?_value {O : Type} (integer : Integer) :
    (integer.value : Value O).integer? = some integer.number := by
  cases integer <;> rfl

theorem id_of_int? {integer : Integer} {value : Int32}
    (same : integer.int? = some value) : integer.id = value := by
  cases integer with
  | int _ =>
      cases same
      exact Int32.ofInt_toInt value
  | _ => exact nomatch same

end Integer

/-! ## Items -/

/-- An encoded value. -/
inductive Item where
  | null
  | boolean (value : Bool)
  | integer (value : Integer)
  | float (bits : UInt32)
  | double (bits : UInt64)
  | bytes (length : Integer) (contents : List UInt8)
  | emptyString
  | string (length : Integer) (contents : List UInt8)
  | array (code : Int8) (type : Option Integer) (dim length : Integer)
      (elements : List Item)
  | struct (type count : Integer) (fields : List (Integer × Item))

/-- What an array or a struct ends with. -/
def endCode : List UInt8 :=
  [TypeCode.NONE.toUInt8]

namespace Item

mutual

def encode : Item → List UInt8
  | null => [TypeCode.NULL.toUInt8]
  | boolean false => [TypeCode.BOOLEAN_FALSE.toUInt8]
  | boolean true => [TypeCode.BOOLEAN_TRUE.toUInt8]
  | integer value => value.encode
  | float bits => TypeCode.FLOAT.toUInt8 :: toBytes 4 bits.toNat
  | double bits => TypeCode.DOUBLE.toUInt8 :: toBytes 8 bits.toNat
  | bytes length contents =>
      TypeCode.BYTES.toUInt8 :: (length.encode ++ contents)
  | emptyString => [TypeCode.EMPTY_STRING.toUInt8]
  | string length contents =>
      TypeCode.STRING.toUInt8 :: (length.encode ++ contents)
  | array code type dim length elements =>
      TypeCode.ARRAY.toUInt8 :: (([code.toUInt8] ++
        ((type.map Integer.encode).getD [] ++ (dim.encode ++ length.encode))) ++
          (encodeAll elements ++ endCode))
  | struct type count fields =>
      TypeCode.CUSTOM.toUInt8 :: ((type.encode ++ count.encode) ++
        (encodeFields fields ++ endCode))

def encodeAll : List Item → List UInt8
  | [] => []
  | item :: items => item.encode ++ encodeAll items

def encodeFields : List (Integer × Item) → List UInt8
  | [] => []
  | (key, item) :: fields => (key.encode ++ item.encode) ++ encodeFields fields

end

theorem encodeFields_append (first second : List (Integer × Item)) :
    encodeFields (first ++ second) =
      encodeFields first ++ encodeFields second := by
  induction first with
  | nil => rfl
  | cons field fields ih =>
      rw [List.cons_append, encodeFields, encodeFields, ih,
        ← List.append_assoc]

end Item

/-! ## What a receiver knows -/

section Receiver

variable {O : Type} (vf : ValueFactory O)

/-- A field that the type has, with a validator. -/
def EtchType.known? (t : EtchType O) (id : Int32) : Option Field :=
  if (t.Validators id).isSome then t.Fields id else none

/-- The validator of a field takes the value, or there is none to take. -/
def EtchType.Takes (t : EtchType O) (field : Field) : Value O → Prop
  | .nil => True
  | value => ∃ validate, t.Validators field.Id = some validate ∧
      validate value = true

/-- The type of the elements of the slice for an array. -/
def kindOf (code : Int8) (type : Option Integer) : Option Kind :=
  if code = TypeCode.BYTE then some .int8
  else if code = TypeCode.SHORT then some .int16
  else if code = TypeCode.INT then some .int32
  else if code = TypeCode.LONG then some .int64
  else if code = TypeCode.FLOAT then some .float32
  else if code = TypeCode.DOUBLE then some .float64
  else if code = TypeCode.STRING then some .any
  else if code = TypeCode.CUSTOM then
    ((type.bind fun type => vf.GetTypeById type.id).bind
      EtchType.NewArray).map .other
  else none

/-- The value as an element of a slice, if it is one. -/
def convert (kind : Kind) (value : Value O) : Option (Value O) :=
  match kind with
  | .int8 => value.integer?.bind fun n =>
      if -2 ^ 7 ≤ n ∧ n < 2 ^ 7 then some (.int8 (Int8.ofInt n)) else none
  | .int16 => value.integer?.bind fun n =>
      if -2 ^ 15 ≤ n ∧ n < 2 ^ 15 then some (.int16 (Int16.ofInt n)) else none
  | .int32 => value.integer?.bind fun n =>
      if -2 ^ 31 ≤ n ∧ n < 2 ^ 31 then some (.int32 (Int32.ofInt n)) else none
  | .int64 => value.integer?.map fun n => .int64 (Int64.ofInt n)
  | .any =>
      match value with
      | .string contents => some (.string contents)
      | _ => none
  | kind => assign vf kind value

mutual

/-- The value of an item to a receiver, if it has one; a multidimensional
array has none. -/
def Item.value? : Item → Option (Value O)
  | .null => some .nil
  | .boolean value => some (.bool value)
  | .integer value => some value.value
  | .float bits => some (.float32 bits)
  | .double bits => some (.float64 bits)
  | .bytes length contents =>
      if length.number = contents.length ∧ contents.length < 2 ^ 31 then
        some (.bytes contents)
      else none
  | .emptyString => some (.string [])
  | .string length contents =>
      if length.number = contents.length ∧ contents.length < 2 ^ 31 then
        some (.string contents)
      else none
  | .array code type dim length elements =>
      if dim.number = 1 ∧ length.number = elements.length ∧
          elements.length < 2 ^ 31 then
        match kindOf vf code type with
        | some kind =>
            (Item.values? kind elements).map fun values => .slice kind values
        | none => none
      else none
  | .struct type _ fields =>
      match vf.GetTypeById type.id with
      | none => none
      | some t =>
          match t.Helper with
          | none => none
          | some importValue => (Item.knownFields? t fields).map importValue

/-- The elements of an array. -/
def Item.values? (kind : Kind) : List Item → Option (List (Value O))
  | [] => some []
  | item :: items =>
      match item.value?, Item.values? kind items with
      | some value, some values =>
          (convert vf kind value).map fun value => value :: values
      | _, _ => none

/-- The fields that are known, with their values. -/
def Item.knownFields? (t : EtchType O) :
    List (Integer × Item) → Option (Fields O)
  | [] => some []
  | (key, item) :: fields =>
      match t.known? key.id with
      | none => Item.knownFields? t fields
      | some field =>
          match item.value?, Item.knownFields? t fields with
          | some value, some known => some ((field, value) :: known)
          | _, _ => none

end

theorem Item.values?_cons {kind : Kind} {item : Item} {items : List Item}
    {values : List (Value O)}
    (given : Item.values? vf kind (item :: items) = some values) :
    ∃ value converted others, item.value? vf = some value ∧
      convert vf kind value = some converted ∧
      Item.values? vf kind items = some others ∧
      values = converted :: others := by
  rw [Item.values?] at given
  split at given
  · rename_i value others first rest
    obtain ⟨converted, converts, rfl⟩ := Option.map_eq_some_iff.mp given
    exact ⟨value, converted, others, first, converts, rest, rfl⟩
  · exact nomatch given

theorem Item.knownFields?_unknown {t : EtchType O} {key : Integer}
    {item : Item} {fields : List (Integer × Item)}
    (unknown : t.known? key.id = none) :
    Item.knownFields? vf t ((key, item) :: fields) =
      Item.knownFields? vf t fields := by
  simp only [Item.knownFields?, unknown]

theorem Item.knownFields?_known {t : EtchType O} {key : Integer}
    {item : Item} {fields : List (Integer × Item)} {field : Field}
    {known : Fields O} (found : t.known? key.id = some field)
    (given : Item.knownFields? vf t ((key, item) :: fields) = some known) :
    ∃ value others, item.value? vf = some value ∧
      Item.knownFields? vf t fields = some others ∧
      known = (field, value) :: others := by
  simp only [Item.knownFields?, found] at given
  split at given
  · rename_i value others first rest
    cases given
    exact ⟨value, others, first, rest, rfl⟩
  · exact nomatch given

theorem Item.knownFields?_append {t : EtchType O}
    {first second : List (Integer × Item)} {known : Fields O}
    (given : Item.knownFields? vf t (first ++ second) = some known) :
    ∃ known₁ known₂, Item.knownFields? vf t first = some known₁ ∧
      Item.knownFields? vf t second = some known₂ ∧
      known = known₁ ++ known₂ := by
  induction first generalizing known with
  | nil => exact ⟨[], known, rfl, given, rfl⟩
  | cons entry fields ih =>
      obtain ⟨key, item⟩ := entry
      cases found : t.known? key.id with
      | none =>
          rw [List.cons_append, knownFields?_unknown vf found] at given
          rw [knownFields?_unknown vf found]
          exact ih given
      | some field =>
          obtain ⟨value, others, first, rest, rfl⟩ :=
            knownFields?_known vf found given
          obtain ⟨known₁, known₂, left, right, rfl⟩ := ih rest
          refine ⟨(field, value) :: known₁, known₂, ?_, right, rfl⟩
          simp only [knownFields?, found, first, left]

/-- No known field has a value just when no field is known. -/
theorem Item.knownFields?_nil_iff {t : EtchType O}
    {fields : List (Integer × Item)} {known : Fields O}
    (given : Item.knownFields? vf t fields = some known) :
    known = [] ↔ ∀ field ∈ fields, t.known? field.1.id = none := by
  induction fields generalizing known with
  | nil =>
      cases given
      exact ⟨fun _ => nofun, fun _ => rfl⟩
  | cons entry fields ih =>
      obtain ⟨key, item⟩ := entry
      rw [List.forall_mem_cons]
      cases found : t.known? key.id with
      | none =>
          rw [knownFields?_unknown vf found] at given
          rw [ih given]
          exact ⟨fun others => ⟨rfl, others⟩, fun all => all.2⟩
      | some field =>
          obtain ⟨value, others, first, rest, rfl⟩ :=
            knownFields?_known vf found given
          exact ⟨nofun, fun all => nomatch all.1⟩

end Receiver

end Etch.Go
