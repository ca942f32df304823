import Etch.Java.ReadScalars
import Etch.Java.ValidatorCoherence

/-!
# Reading items

What the reader makes of a message, apart from its bytes: the types and fields
it looks up, the validators it asks for, the arrays it fills and the objects it
imports, item by item.  Of the encoding of an item the reader makes just that.
-/

namespace Etch.Java

open Etch.Library.Stateful BinaryTaggedDataInput

section Items

variable {S : Type} (vf : ValueFactory S)

/-- What is returned or thrown without a look at the factory. -/
def returned {α : Type} : Except Thrown α → EStateM Thrown S α
  | .ok value => return value
  | .error thrown => throw thrown

namespace Scalar

def read (v : Option Validator) (noneOk : Bool) (s : Scalar) :
    EStateM Thrown S Value :=
  if s = .none ∧ noneOk = true then return .NONE
  else returned (validateValue vf v (s.value vf))

def readType (s : Scalar) : EStateM Thrown S IdName := do
  let obj ← s.read vf (some intOrStrValidator) false
  match obj with
  | .int id =>
      let type ← vf.getTypeById id
      return type.getD (ofId id)
  | .string name =>
      let type ← vf.getTypeByName name
      return type.getD (IdName.ofName name)
  | _ => throw (.assertionException (text "obj instanceof String"))

/-- The field that a scalar stands for, which is not NONE. -/
def readField (type : IdName) (s : Scalar) : EStateM Thrown S Field := do
  let obj ← s.read vf (some intOrStrValidator) false
  match obj with
  | .int id =>
      let field ← vf.getFieldById type id
      return field.getD (ofId id)
  | .string name =>
      let field ← vf.getFieldByName type name
      return field.getD (IdName.ofName name)
  | _ => throw (.assertionException (text "obj instanceof String"))

end Scalar

/-- The type code of an array and the type of its structs. -/
def ElementType.read :
    ElementType → EStateM Thrown S (Int8 × Option IdName)
  | native code _ => return (code, none)
  | custom type => do
      let customStructType ← type.readType vf
      return (TypeCode.CUSTOM, some customStructType)

/-- The class under all dimensions of an array. -/
def baseType (typeCode : Int8) :
    Option IdName → EStateM Thrown S JavaClass
  | some type => do
      let c ← vf.getComponentType type
      return c.getD .structValue
  | none => returned (BinaryTaggedData.getNativeType typeCode)

/-- An array that is still empty. -/
def newArray (element : ElementType) (dim : Int32) :
    EStateM Thrown S ArrayValue := do
  let (typeCode, customStructType) ← element.read vf
  returned (checkDim dim.toInt)
  let c ← baseType vf typeCode customStructType
  return ⟨c.arrayOf (dim.toInt.toNat - 1), [], typeCode, customStructType,
    dim.toInt⟩

/-- The validator of the elements, where there is one of the array. -/
def elementValidator : Option Validator →
    EStateM Thrown S (Option Validator)
  | some v => returned v.elementValidator
  | none => throw .nullPointerException

mutual

/-- What `readValue` makes of an item. -/
def Item.read (v : Option Validator) (noneOk : Bool) :
    Item → EStateM Thrown S Value
  | .scalar s => s.read vf v noneOk
  | .array element dim elements => do
      let av ← newArray vf element dim
      let ev ← elementValidator v
      let av ← readElements ev elements av
      returned (validateValue vf v av.getArray)
  | .struct type fields => do
      let t ← type.readType vf
      let sv ← returned (StructValue.new t fields.length)
      let sv ← readFields fields sv
      let value ← vf.importCustomValue sv
      returned (validateValue vf v value)

def readElements (ev : Option Validator) :
    List Item → ArrayValue → EStateM Thrown S ArrayValue
  | [], av => return av
  | item :: items, av => do
      let value ← item.read ev true
      let av ← returned (av.add vf.classes.isSuper value)
      readElements ev items av

def readFields :
    List (Scalar × Item) → StructValue → EStateM Thrown S StructValue
  | [], sv => return sv
  | (field, item) :: fields, sv => do
      let key ← field.readField vf sv.type
      let v ← vf.getValidator sv.type key
      match v with
      | some v =>
          let value ← item.read (some v) false
          let sv ← sv.put vf key value
          readFields fields sv
      | none =>
          -- the value is read and ignored
          let _ ← item.read (some (.object 0)) false
          readFields fields sv

end

/-- What `readMessage` makes of the items of a message. -/
def readItems (type : Scalar) (fields : List (Scalar × Item)) :
    EStateM Thrown S StructValue := do
  let t ← type.readType vf
  let sv ← returned (StructValue.new t fields.length)
  readFields vf fields sv

end Items

mutual

/-- Nothing in an item is taken for its end. -/
def Item.Clean : Item → Prop
  | .scalar _ => True
  | .array _ _ elements => CleanAll elements
  | .struct _ fields => CleanFields fields

def CleanAll : List Item → Prop
  | [] => True
  | item :: items => item ≠ .scalar .none ∧ item.Clean ∧ CleanAll items

def CleanFields : List (Scalar × Item) → Prop
  | [] => True
  | (field, item) :: fields =>
      field ≠ .none ∧ item.Clean ∧ CleanFields fields

end

/-- No object is imported as the end of an array. -/
def ImportsNoEnd {S : Type} (vf : ValueFactory S) : Prop :=
  ∀ sv before value after, vf.importCustomValue sv before = .ok value after →
    value ≠ .NONE

theorem StructValue.new_one (type : IdName) :
    new type (0 + 1 : Nat) = .ok ⟨type, []⟩ :=
  if_neg (by decide)

/-! ## Decoding -/

namespace BinaryTaggedDataInput

variable {S α β : Type}

/-- Where the reader is. -/
structure Stands (bytes : List UInt8) (budget : Int) (factory : S)
    (input : Input S) : Prop where
  unread : input.buf.unread = bytes
  lengthBudget : input.lengthBudget = budget
  factory : input.factory = factory

/-- The reader takes these bytes, declared lengths off its budget, and does
otherwise what `m` does. -/
def Decodes (read : Reader S α) (bytes : List UInt8) (declared : Nat)
    (m : EStateM Thrown S α) : Prop :=
  ∀ rest (budget : Int) factory input, 0 ≤ budget →
    Stands (bytes ++ rest) (declared + budget) factory input →
      match m factory with
      | .ok value next => ∃ after, read input = .ok value after ∧
          Stands rest budget next after
      | .error thrown next => ∃ after, read input = .error thrown after ∧
          after.factory = next

namespace Decodes

variable {read : Reader S α} {bytes : List UInt8} {declared : Nat}
  {m : EStateM Thrown S α}

theorem pure (value : α) :
    Decodes (Pure.pure value : Reader S α) [] 0 (Pure.pure value) := by
  intro rest budget factory input _ stands
  refine ⟨input, rfl, stands.unread, ?_, stands.factory⟩
  rw [stands.lengthBudget]
  exact Int.zero_add budget

theorem throw (thrown : Thrown) :
    Decodes (MonadExcept.throw thrown : Reader S α) bytes declared
      (MonadExcept.throw thrown) :=
  fun _ _ _ input _ stands => ⟨input, rfl, stands.factory⟩

theorem throwing (result : Except Thrown α) :
    Decodes (BinaryTaggedDataInput.throwing result : Reader S α) [] 0
      (returned result) := by
  cases result with
  | error thrown => exact throw thrown
  | ok value => exact pure value

theorem call (m : EStateM Thrown S α) :
    Decodes (BinaryTaggedDataInput.call m) [] 0 m := by
  intro rest budget factory input _ stands
  obtain ⟨unread, lengthBudget, rfl⟩ := stands
  unfold BinaryTaggedDataInput.call
  cases m input.factory with
  | ok value next =>
      refine ⟨_, rfl, unread, ?_, rfl⟩
      exact lengthBudget.trans (Int.zero_add budget)
  | error thrown next => exact ⟨_, rfl, rfl⟩

theorem bind {bytes' : List UInt8} {declared' : Nat}
    {next : α → Reader S β} {m' : α → EStateM Thrown S β}
    (first : Decodes read bytes declared m)
    (second : ∀ value before after, m before = .ok value after →
      Decodes (next value) bytes' declared' (m' value)) :
    Decodes (read >>= next) (bytes ++ bytes') (declared + declared')
      (m >>= m') := by
  intro rest budget factory input nonneg stands
  rw [List.append_assoc, Int.natCast_add, Int.add_assoc] at stands
  have first := first _ _ _ _ (by omega) stands
  cases done : m factory with
  | error thrown failed =>
      rw [done] at first
      obtain ⟨after, threw, left⟩ := first
      rw [bind_error done]
      exact ⟨after, bind_error threw, left⟩
  | ok value middle =>
      rw [done] at first
      obtain ⟨after, got, stands⟩ := first
      rw [bind_ok done, bind_ok got]
      exact second value _ _ done _ _ _ _ nonneg stands

/-- What has been read is known. -/
theorem known {bytes' : List UInt8} {declared' : Nat} {value : α}
    {next : α → Reader S β} {m' : EStateM Thrown S β}
    (first : Decodes read bytes declared (Pure.pure value))
    (second : Decodes (next value) bytes' declared' m') :
    Decodes (read >>= next) (bytes ++ bytes') (declared + declared') m' := by
  have both : Decodes (read >>= next) (bytes ++ bytes')
      (declared + declared') (Pure.pure value >>= fun _ => m') := by
    refine first.bind fun value' _ _ done => ?_
    obtain ⟨rfl, rfl⟩ := EStateM.Result.ok.inj done
    exact second
  rwa [pure_bind] at both

theorem bind_map {γ : Type} {f : γ → α} {n : EStateM Thrown S γ}
    {bytes' : List UInt8} {declared' : Nat} {next : α → Reader S β}
    {m' : γ → EStateM Thrown S β}
    (first : Decodes read bytes declared (f <$> n))
    (second : ∀ value,
      Decodes (next (f value)) bytes' declared' (m' value)) :
    Decodes (read >>= next) (bytes ++ bytes') (declared + declared')
      (n >>= m') := by
  intro rest budget factory input nonneg stands
  rw [List.append_assoc, Int.natCast_add, Int.add_assoc] at stands
  have first := first _ _ _ _ (by omega) stands
  rw [map_eq_pure_bind] at first
  cases done : n factory with
  | error thrown failed =>
      rw [bind_error done] at first
      obtain ⟨after, threw, left⟩ := first
      rw [bind_error done]
      exact ⟨after, bind_error threw, left⟩
  | ok value middle =>
      rw [bind_ok done] at first
      obtain ⟨after, got, stands⟩ := first
      rw [bind_ok done, bind_ok got]
      exact second value _ _ _ _ nonneg stands

/-- After nothing has been read. -/
theorem bind' {next : α → Reader S β} {m' : α → EStateM Thrown S β}
    (first : Decodes read [] 0 m)
    (second : ∀ value, Decodes (next value) bytes declared (m' value)) :
    Decodes (read >>= next) bytes declared (m >>= m') := by
  have both := first.bind fun value _ _ _ => second value
  rwa [Nat.zero_add] at both

theorem cast {bytes' : List UInt8} {declared' : Nat}
    (decodes : Decodes read bytes declared m) (same : bytes' = bytes)
    (same' : declared' = declared) : Decodes read bytes' declared' m := by
  rwa [same, same']

/-- A code is read, and then what follows it. -/
theorem coded {code : Int8} {next : Int8 → Reader S α}
    (follows : Decodes (next code) bytes declared m) :
    Decodes (getByte >>= next) (code.toUInt8 :: bytes) declared m := by
  intro rest budget factory input nonneg stands
  obtain ⟨buf, left, got⟩ := getByte_cons stands.unread
  rw [bind_ok got, Int8.toInt8_toUInt8]
  exact follows _ _ _ _ nonneg
    ⟨left, stands.lengthBudget, stands.factory⟩

/-- The bytes that are left bound a loop. -/
theorem avail {next : Nat → Reader S α}
    (follows : ∀ left, bytes.length ≤ left →
      Decodes (next left) bytes declared m) :
    Decodes (BinaryTaggedDataInput.avail >>= next) bytes declared m := by
  intro rest budget factory input nonneg stands
  have enough : bytes.length ≤ input.buf.avail := by
    rw [← input.buf.length_unread, stands.unread, List.length_append]
    omega
  exact follows _ enough _ _ _ _ nonneg stands

/-- No more bytes than a buffer has. -/
theorem of_small
    (decodes : bytes.length < 2 ^ 31 → Decodes read bytes declared m) :
    Decodes read bytes declared m := by
  intro rest budget factory input nonneg stands
  have small := input.buf.avail_lt
  rw [← input.buf.length_unread, stands.unread, List.length_append] at small
  exact decodes (by omega) _ _ _ _ nonneg stands

/-- After what has been read there is nothing more to read. -/
theorem silent {next : α → Reader S β} {m' : α → EStateM Thrown S β}
    (first : Decodes read bytes declared m)
    (second : ∀ value before after, m before = .ok value after →
      Decodes (next value) [] 0 (m' value)) :
    Decodes (read >>= next) bytes declared (m >>= m') := by
  have both := first.bind second
  rwa [List.append_nil] at both

/-- A budget of as many bytes is enough. -/
theorem run {value : α}
    (decodes : Decodes read bytes declared (Pure.pure value))
    (few : declared ≤ bytes.length) {rest : List UInt8} {input : Input S}
    (unread : input.buf.unread = bytes ++ rest)
    (budget : bytes.length ≤ input.lengthBudget) :
    ∃ after, read input = .ok value after ∧ after.buf.unread = rest := by
  have stands : Stands (bytes ++ rest)
      (declared + (input.lengthBudget - declared)) input.factory input :=
    ⟨unread, by omega, rfl⟩
  obtain ⟨after, done, stands⟩ := decodes rest _ _ input (by omega) stands
  exact ⟨after, done, stands.unread⟩

end Decodes

/-! ## Values that are not NONE -/

theorem validate_ne_NONE {vf : ValueFactory S} {v : Option Validator}
    {value value' : Value} (valid : validateValue vf v value = .ok value')
    (plain : value ≠ .NONE) : value' ≠ .NONE := by
  have kept (w : Validator)
      (valid : w.validateValue vf.classes value = .ok value') :
      value' ≠ .NONE := by
    rintro rfl
    cases Validator.same_of_validateValue valid with
    | refl => exact plain rfl
    | integer is _ => exact nomatch is
  cases v with
  | none =>
      obtain rfl := Except.ok.inj valid
      exact nofun
  | some w =>
      cases value with
      | null =>
          obtain rfl := Except.ok.inj valid
          exact nofun
      | _ => exact kept w valid

theorem value_ne_NONE (vf : ValueFactory S) {s : Scalar}
    (plain : s ≠ .none) : s.value vf ≠ .NONE := by
  cases s with
  | none => exact absurd rfl plain
  | integer n =>
      rw [Scalar.value]
      unfold narrowed
      split_ifs <;> rintro ⟨⟩
  | _ => rintro ⟨⟩

theorem returned_ok {result : Except Thrown α} {before after : S}
    {value : α} (done : returned result before = .ok value after) :
    result = .ok value ∧ after = before := by
  cases result with
  | error thrown => exact nomatch done
  | ok value' =>
      obtain ⟨rfl, rfl⟩ := EStateM.Result.ok.inj done
      exact ⟨rfl, rfl⟩

theorem readScalar_plain {vf : ValueFactory S} {s : Scalar}
    (plain : s ≠ .none) (v : Option Validator) (noneOk : Bool) :
    s.read vf v noneOk = returned (validateValue vf v (s.value vf)) :=
  if_neg fun both => plain both.1

theorem readScalar_ne_NONE {vf : ValueFactory S} {s : Scalar}
    (plain : s ≠ .none) {v : Option Validator} {noneOk : Bool}
    {before after : S} {value : Value}
    (done : s.read vf v noneOk before = .ok value after) :
    value ≠ .NONE := by
  rw [readScalar_plain plain] at done
  exact validate_ne_NONE (returned_ok done).1 (value_ne_NONE vf plain)

theorem readItem_ne_NONE {vf : ValueFactory S} (noEnd : ImportsNoEnd vf)
    {item : Item} (plain : item ≠ .scalar .none) {v : Option Validator}
    {noneOk : Bool} {before after : S} {value : Value}
    (done : item.read vf v noneOk before = .ok value after) :
    value ≠ .NONE := by
  cases item with
  | scalar s =>
      rw [Item.read] at done
      exact readScalar_ne_NONE (fun same => plain (congrArg _ same)) done
  | array element dim elements =>
      rw [Item.read] at done
      obtain ⟨av, _, _, done⟩ := bind_eq_ok_iff.mp done
      obtain ⟨ev, _, _, done⟩ := bind_eq_ok_iff.mp done
      obtain ⟨av, _, _, done⟩ := bind_eq_ok_iff.mp done
      exact validate_ne_NONE (returned_ok done).1 nofun
  | struct type fields =>
      rw [Item.read] at done
      obtain ⟨t, _, _, done⟩ := bind_eq_ok_iff.mp done
      obtain ⟨sv, _, _, done⟩ := bind_eq_ok_iff.mp done
      obtain ⟨sv, _, _, done⟩ := bind_eq_ok_iff.mp done
      obtain ⟨value', _, imported, done⟩ := bind_eq_ok_iff.mp done
      exact validate_ne_NONE (returned_ok done).1
        (noEnd _ _ _ _ imported)

/-! ## Scalars in front of items -/

section Follows

variable {vf : ValueFactory S} {size : Nat}
  {read : Option Validator → Bool → Reader S Value}

/-- What `readValue` makes of the items that are no longer than this. -/
def Follows (vf : ValueFactory S) (size : Nat)
    (read : Option Validator → Bool → Reader S Value) : Prop :=
  ∀ item : Item, item.Clean → item.encode.length ≤ size → ∀ v noneOk,
    Decodes (read v noneOk) item.encode item.declared
      (item.read vf v noneOk)

/-- What `readValue` makes of the scalars that are no longer than this. -/
def FollowsScalars (vf : ValueFactory S) (size : Nat)
    (read : Option Validator → Bool → Reader S Value) : Prop :=
  ∀ s : Scalar, s.encode.length ≤ size → ∀ v noneOk,
    Decodes (read v noneOk) s.encode s.declared (s.read vf v noneOk)

theorem Follows.scalars (follows : Follows vf size read) :
    FollowsScalars vf size read := by
  intro s fits v noneOk
  have decodes := follows (.scalar s) trivial (by rwa [Item.encode]) v noneOk
  rwa [Item.encode, Item.declared, Item.read] at decodes

theorem FollowsScalars.int (follows : FollowsScalars vf size read) {n : Int32}
    (fits : (Scalar.integerBytes n.toInt).length ≤ size) :
    Decodes (readIntegerValue read) (Scalar.integerBytes n.toInt) 0
      (Pure.pure n.toInt) := by
  rw [← Scalar.encode_int] at fits ⊢
  have plain : Scalar.integer n.toInt64 ≠ .none := nofun
  have value : (Scalar.integer n.toInt64).read vf
      (some (.integer .int 0)) false = Pure.pure (.int n) := by
    rw [readScalar_plain plain, validateValue_int]
    rfl
  have decodes := follows _ fits (some (.integer .int 0)) false
  rw [value] at decodes
  have whole : Decodes (readIntegerValue read)
      ((Scalar.integer n.toInt64).encode ++ []) (0 + 0)
      (Pure.pure n.toInt) := decodes.known (.pure _)
  rwa [List.append_nil] at whole

/-- A length that is declared is accepted. -/
theorem FollowsScalars.length (follows : FollowsScalars vf size read)
    {length : Nat} (small : length < 2 ^ 31)
    (fits : (Scalar.lengthBytes length).length ≤ size) :
    Decodes (readLength read) (Scalar.lengthBytes length) length
      (Pure.pure length) := by
  have is : (Int32.ofNat length).toInt = length :=
    Int32.toInt_ofNat_of_lt small
  have takes : Decodes (takeLength length : Reader S Unit) [] length
      (Pure.pure ()) := by
    intro rest budget factory input nonneg stands
    have budgeted := stands.lengthBudget
    refine ⟨_, if_neg (by omega), stands.unread, ?_, stands.factory⟩
    change input.lengthBudget - length = budget
    omega
  have whole : Decodes (readLength read)
      (Scalar.lengthBytes length ++ ([] ++ [])) (0 + (length + 0))
      (Pure.pure length) := by
    refine (follows.int fits).known ?_
    rw [is]
    refine takes.known ?_
    rw [Int.toNat_natCast]
    exact .pure length
  rwa [List.append_nil, List.append_nil, Nat.zero_add] at whole

theorem FollowsScalars.bytes (follows : FollowsScalars vf size read)
    {contents : List UInt8} (small : contents.length < 2 ^ 31)
    (fits : (Scalar.lengthBytes contents.length).length ≤ size) :
    Decodes (readBytes read)
      (Scalar.lengthBytes contents.length ++ contents) contents.length
      (Pure.pure contents) := by
  have whole : Decodes (readBytes read)
      (Scalar.lengthBytes contents.length ++ contents) (contents.length + 0)
      (Pure.pure contents) := by
    refine (follows.length small fits).known ?_
    intro rest budget factory input nonneg stands
    obtain ⟨buf, full, left⟩ := FlexBuffer.getFully_append stands.unread
    refine ⟨_, get_ok full, left, ?_, stands.factory⟩
    exact stands.lengthBudget.trans (Int.zero_add budget)
  exact whole

theorem FollowsScalars.type (follows : FollowsScalars vf size read) {s : Scalar}
    (fits : s.encode.length ≤ size) :
    Decodes (readType vf read) s.encode s.declared (s.readType vf) := by
  refine (follows _ fits _ _).silent fun value _ _ _ => ?_
  cases value with
  | int id => exact (Decodes.call _).silent fun _ _ _ _ => .pure _
  | string name => exact (Decodes.call _).silent fun _ _ _ _ => .pure _
  | _ => exact .throw _

theorem FollowsScalars.field (follows : FollowsScalars vf size read)
    {s : Scalar}
    (fits : s.encode.length ≤ size) (plain : s ≠ .none) (type : IdName) :
    Decodes (readField vf read type) s.encode s.declared
      (some <$> s.readField vf type) := by
  have same (noneOk : Bool) : s.read vf (some intOrStrValidator) noneOk =
      s.read vf (some intOrStrValidator) false := by
    rw [readScalar_plain plain, readScalar_plain plain]
  rw [Scalar.readField, map_bind, ← same true]
  refine (follows _ fits _ _).silent fun value _ _ done => ?_
  cases value with
  | NONE => exact absurd rfl (readScalar_ne_NONE plain done)
  | int id =>
      rw [map_bind]
      exact (Decodes.call _).silent fun _ _ _ _ => .pure _
  | string name =>
      rw [map_bind]
      exact (Decodes.call _).silent fun _ _ _ _ => .pure _
  | _ => exact .throw _

/-! ## Arrays -/

theorem decodes_getComponentType (vf : ValueFactory S) (typeCode : Int8)
    (customStructType : Option IdName) (dim : Nat) :
    Decodes (getComponentType vf typeCode customStructType dim) [] 0 (do
      let c ← baseType vf typeCode customStructType
      return c.arrayOf dim) := by
  have base : Decodes (getBaseType vf typeCode customStructType) [] 0
      (baseType vf typeCode customStructType) := by
    cases customStructType with
    | none => exact .throwing _
    | some type => exact (Decodes.call _).silent fun _ _ _ _ => .pure _
  exact base.silent fun _ _ _ _ => .pure _

/-- The header of an array, from its type code on. -/
theorem FollowsScalars.startArray (follows : FollowsScalars vf size read)
    (element : ElementType) (dim : Int32) {length : Nat}
    (small : length < 2 ^ 31)
    (fits : (element.encode ++ (Scalar.integerBytes dim.toInt ++
      Scalar.lengthBytes length)).length ≤ size) :
    Decodes (startArray vf read)
      (element.encode ++ (Scalar.integerBytes dim.toInt ++
        Scalar.lengthBytes length))
      (element.declared + length) (newArray vf element dim) := by
  rw [List.length_append, List.length_append] at fits
  have numbers (code : Int8) (type : Option IdName) :
      Decodes (do
          let dim ← readIntegerValue read
          throwing (checkDim dim)
          let _length ← readLength read
          let component ← getComponentType vf code type (dim.toNat - 1)
          return (⟨component, [], code, type, dim⟩ : ArrayValue))
        (Scalar.integerBytes dim.toInt ++ Scalar.lengthBytes length) length
        (do
          returned (checkDim dim.toInt)
          let c ← baseType vf code type
          return ⟨c.arrayOf (dim.toInt.toNat - 1), [], code, type,
            dim.toInt⟩) := by
    have component := decodes_getComponentType vf code type
      (dim.toInt.toNat - 1)
    have array : Decodes (do
          let component ← getComponentType vf code type
            (dim.toInt.toNat - 1)
          return (⟨component, [], code, type, dim.toInt⟩ : ArrayValue))
        [] 0 (do
          let c ← baseType vf code type
          return ⟨c.arrayOf (dim.toInt.toNat - 1), [], code, type,
            dim.toInt⟩) := by
      have both := component.silent fun c _ _ _ =>
        .pure (⟨c, [], code, type, dim.toInt⟩ : ArrayValue)
      simpa only [bind_assoc, pure_bind] using both
    have tail : Decodes (do
          let _length ← readLength read
          let component ← getComponentType vf code type
            (dim.toInt.toNat - 1)
          return (⟨component, [], code, type, dim.toInt⟩ : ArrayValue))
        (Scalar.lengthBytes length ++ []) (length + 0) (do
          let c ← baseType vf code type
          return ⟨c.arrayOf (dim.toInt.toNat - 1), [], code, type,
            dim.toInt⟩) :=
      (follows.length small (by omega)).known array
    have checked := (Decodes.throwing (S := S)
      (checkDim dim.toInt)).bind' fun _ => tail
    have fits : (Scalar.integerBytes dim.toInt).length ≤ size := by omega
    refine Decodes.cast (Decodes.known (follows.int fits) checked) ?_ ?_
    · rw [List.append_nil]
    · rw [Nat.add_zero, Nat.zero_add]
  cases element with
  | native code isNative =>
      refine Decodes.coded ?_
      unfold readStructType
      rw [if_neg (not_or.mpr isNative)]
      have whole := numbers code none
      rw [ElementType.declared, Nat.zero_add]
      exact whole
  | custom type =>
      rw [ElementType.encode, List.length_cons] at fits
      rw [newArray, ElementType.read, bind_assoc, ElementType.encode,
        ElementType.declared, List.cons_append]
      refine Decodes.coded ?_
      unfold readStructType
      rw [if_pos (Or.inl rfl), bind_assoc]
      exact (follows.type (by omega)).bind fun name _ _ _ =>
        numbers TypeCode.CUSTOM (some name)

/-- An item that is read, and not as an end. -/
structure Element (vf : ValueFactory S)
    (read : Option Validator → Bool → Reader S Value)
    (ev : Option Validator) (item : Item) : Prop where
  decodes : Decodes (read ev true) item.encode item.declared
    (item.read vf ev true)
  plain : ∀ value before after,
    item.read vf ev true before = .ok value after → value ≠ .NONE

theorem FollowsScalars.readElements (follows : FollowsScalars vf size read)
    (positive : 0 < size) {ev : Option Validator} {items : List Item}
    (elements : ∀ item ∈ items, Element vf read ev item)
    (bytes : Nat) (enough : items.length < bytes) (av : ArrayValue) :
    Decodes (readElements vf read ev bytes av)
      (Item.encodeAll items ++ Scalar.none.encode)
      (Item.declaredAll items) (Etch.Java.readElements vf ev items av) := by
  induction items generalizing bytes av with
  | nil =>
      obtain ⟨bytes, rfl⟩ := Nat.exists_eq_add_one.mpr enough
      have none : Decodes (read ev true) Scalar.none.encode 0
          (Pure.pure .NONE) := follows .none positive ev true
      refine Decodes.cast (Decodes.known none (.pure av)) ?_ rfl
      rw [List.append_nil]
      rfl
  | cons item items ih =>
      obtain ⟨bytes, rfl⟩ := Nat.exists_eq_add_one.mpr
        (Nat.zero_lt_of_lt enough)
      obtain ⟨⟨decodes, plain⟩, rest⟩ := List.forall_mem_cons.mp elements
      rw [Item.encodeAll, List.append_assoc]
      refine decodes.bind fun value before after done => ?_
      have more (av : ArrayValue) := ih rest bytes
        (Nat.lt_of_succ_lt_succ enough) av
      have added := (Decodes.throwing (S := S)
        (av.add vf.classes.isSuper value)).bind' more
      cases value with
      | NONE => exact absurd rfl (plain _ before after done)
      | _ => exact added

theorem FollowsScalars.readValues (follows : FollowsScalars vf size read)
    (positive : 0 < size) (v : Option Validator) {items : List Item}
    (elements : ∀ ev, ∀ item ∈ items, Element vf read ev item)
    (av : ArrayValue) :
    Decodes (readValues vf read av v)
      (Item.encodeAll items ++ Scalar.none.encode)
      (Item.declaredAll items) (do
        let ev ← elementValidator v
        Etch.Java.readElements vf ev items av) := by
  cases v with
  | none => exact .throw _
  | some v =>
      refine (Decodes.throwing v.elementValidator).bind' fun ev =>
        .avail fun left enough => ?_
      have counted := Item.declaredAll_le_encodeAll items
      rw [List.length_append] at enough
      have one : Scalar.none.encode.length = 1 := rfl
      exact follows.readElements positive (elements ev) left (by omega) av

theorem Follows.elements (follows : Follows vf size read)
    (noEnd : ImportsNoEnd vf) {items : List Item} (clean : CleanAll items)
    (fits : (Item.encodeAll items).length ≤ size) (ev : Option Validator) :
    ∀ item ∈ items, Element vf read ev item := by
  induction items with
  | nil => exact fun _ member => absurd member List.not_mem_nil
  | cons item items ih =>
      obtain ⟨plain, clean, rest⟩ := clean
      rw [Item.encodeAll, List.length_append] at fits
      refine List.forall_mem_cons.mpr ⟨⟨?_, ?_⟩, ih rest (by omega)⟩
      · exact follows item clean (by omega) ev true
      · exact fun _ _ _ done => readItem_ne_NONE noEnd plain done

/-! ## Structs -/

theorem Follows.readEntries (follows : Follows vf size read)
    (fields : List (Scalar × Item)) (clean : CleanFields fields)
    (fits : (Item.encodeFields fields ++ Scalar.none.encode).length ≤ size)
    (bytes : Nat) (enough : fields.length < bytes) (sv : StructValue) :
    Decodes (readEntries vf read bytes sv)
      (Item.encodeFields fields ++ Scalar.none.encode)
      (Item.declaredFields fields) (readFields vf fields sv) := by
  induction fields generalizing bytes sv with
  | nil =>
      obtain ⟨bytes, rfl⟩ := Nat.exists_eq_add_one.mpr enough
      have one : Scalar.none.encode.length ≤ size := fits
      have none : Decodes (read (some intOrStrValidator) true)
          Scalar.none.encode 0 (Pure.pure .NONE) :=
        follows.scalars _ one (some intOrStrValidator) true
      have field : Decodes (readField vf read sv.type)
          (Scalar.none.encode ++ []) (0 + 0) (Pure.pure Option.none) :=
        Decodes.known none (.pure Option.none)
      refine Decodes.cast (Decodes.known field (.pure sv)) ?_ rfl
      rw [List.append_nil, List.append_nil]
      rfl
  | cons entry fields ih =>
      obtain ⟨field, item⟩ := entry
      obtain ⟨bytes, rfl⟩ := Nat.exists_eq_add_one.mpr
        (Nat.zero_lt_of_lt enough)
      obtain ⟨plain, clean, rest⟩ := clean
      rw [Item.encodeFields, List.append_assoc, List.append_assoc] at fits ⊢
      rw [List.length_append, List.length_append] at fits
      have more (sv : StructValue) := ih rest (by omega) bytes
        (Nat.lt_of_succ_lt_succ enough) sv
      have key : Decodes (readField vf read sv.type) field.encode
        field.declared (some <$> field.readField vf sv.type) :=
          follows.scalars.field (by omega) plain sv.type
      have valued (key : Field) : Decodes (do
            let v ← call (vf.getValidator sv.type key)
            match v with
            | some v =>
                let value ← read (some v) false
                let sv ← call (sv.put vf key value)
                BinaryTaggedDataInput.readEntries vf read bytes sv
            | none =>
                let _ ← read (some (.object 0)) false
                BinaryTaggedDataInput.readEntries vf read bytes sv)
          (item.encode ++ (Item.encodeFields fields ++ Scalar.none.encode))
          (item.declared + Item.declaredFields fields) (do
            let v ← vf.getValidator sv.type key
            match v with
            | some v =>
                let value ← item.read vf (some v) false
                let sv ← sv.put vf key value
                readFields vf fields sv
            | none =>
                let _ ← item.read vf (some (.object 0)) false
                readFields vf fields sv) := by
        refine (Decodes.call _).bind' fun v => ?_
        cases v with
        | some v =>
            exact (follows item clean (by omega) _ _).bind fun value _ _ _ =>
              (Decodes.call _).bind' more
        | none =>
            exact (follows item clean (by omega) _ _).bind fun value _ _ _ =>
              more sv
      exact key.bind_map valued

/-- The type, the length and the fields of a struct or a message. -/
theorem Follows.readItems (follows : Follows vf size read)
    (type : Scalar) (fields : List (Scalar × Item))
    (clean : CleanFields fields) (small : fields.length < 2 ^ 31)
    (fits : (type.encode ++ (Scalar.lengthBytes fields.length ++
      (Item.encodeFields fields ++ Scalar.none.encode))).length ≤ size) :
    Decodes (do
        let sv ← startStruct vf read
        readKeysAndValues vf read sv)
      (type.encode ++ (Scalar.lengthBytes fields.length ++
        (Item.encodeFields fields ++ Scalar.none.encode)))
      (type.declared + (fields.length + Item.declaredFields fields))
      (Etch.Java.readItems vf type fields) := by
  rw [List.length_append, List.length_append] at fits
  have entries (sv : StructValue) :
      Decodes (readKeysAndValues vf read sv)
        (Item.encodeFields fields ++ Scalar.none.encode)
        (Item.declaredFields fields) (readFields vf fields sv) := by
    refine .avail fun left enough => ?_
    have counted := Item.declaredFields_le_encodeFields fields
    rw [List.length_append] at enough
    have one : Scalar.none.encode.length = 1 := rfl
    exact follows.readEntries fields clean (by omega) left (by omega) sv
  unfold startStruct
  rw [bind_assoc]
  refine (follows.scalars.type (by omega)).bind fun t _ _ _ => ?_
  rw [bind_assoc]
  refine (follows.scalars.length small (by omega)).known ?_
  exact (Decodes.throwing _).bind' entries

/-! ## Items -/

/-- The contents of a string or of bytes. -/
theorem FollowsScalars.contents (follows : FollowsScalars vf size read)
    {code : Int8}
    {v : Option Validator} {noneOk : Bool} {contents : List UInt8}
    {value : List UInt8 → Value} {s : Scalar}
    (fits : (Scalar.lengthBytes contents.length).length ≤ size)
    (small : contents.length < 2 ^ 31)
    (payload : readPayload vf read code v noneOk = (do
      let bytes ← readBytes read
      throwing (validateValue vf v (value bytes))))
    (plain : s ≠ .none) (is : s.value vf = value contents) :
    Decodes (readValueBody vf read v noneOk)
      (code.toUInt8 :: (Scalar.lengthBytes contents.length ++ contents))
      contents.length (s.read vf v noneOk) := by
  refine Decodes.coded ?_
  rw [payload, readScalar_plain plain, is]
  refine Decodes.cast (Decodes.known (follows.bytes small fits)
    (.throwing (validateValue vf v (value contents)))) ?_ rfl
  rw [List.append_nil]

theorem decodes_outcome (v : Option Validator) (noneOk : Bool)
    (s : Scalar) :
    Decodes (outcome vf v noneOk s) [] 0 (s.read vf v noneOk) := by
  unfold outcome Scalar.read
  split_ifs
  · exact .pure _
  · exact .throwing _

theorem FollowsScalars.body (follows : FollowsScalars vf size read) (s : Scalar)
    (fits : s.encode.length ≤ size + 1) (small : s.encode.length < 2 ^ 31)
    (v : Option Validator) (noneOk : Bool) :
    Decodes (readValueBody vf read v noneOk) s.encode s.declared
      (s.read vf v noneOk) := by
  by_cases plain : (∀ contents, s ≠ .string contents) ∧
      ∀ contents, s ≠ .binary contents
  · have free : s.declared = 0 := by
      cases s with
      | string contents => exact absurd rfl (plain.1 contents)
      | binary contents => exact absurd rfl (plain.2 contents)
      | _ => rfl
    rintro rest budget factory input nonneg ⟨unread, lengthBudget, rfl⟩
    have reads : Reads vf read input s rest :=
      reads_plain unread plain.1 plain.2
    obtain ⟨buf, left, does⟩ := reads v noneOk
    rw [does]
    exact decodes_outcome v noneOk s rest budget input.factory _ nonneg
      ⟨left, lengthBudget.trans (by rw [free]), rfl⟩
  · cases s with
    | string contents =>
        rw [Scalar.encode, List.length_cons, List.length_append]
          at fits small
        exact follows.contents (by omega) (by omega) rfl (by rintro ⟨⟩) rfl
    | binary contents =>
        rw [Scalar.encode, List.length_cons, List.length_append]
          at fits small
        exact follows.contents (by omega) (by omega) rfl (by rintro ⟨⟩) rfl
    | _ => exact absurd ⟨by simp, by simp⟩ plain

theorem FollowsScalars.body_array (follows : FollowsScalars vf size read)
    {element : ElementType} {dim : Int32} {items : List Item}
    (elements : ∀ ev, ∀ item ∈ items, Element vf read ev item)
    (fits : (Item.array element dim items).encode.length ≤ size + 1)
    (small : (Item.array element dim items).encode.length < 2 ^ 31)
    (v : Option Validator) (noneOk : Bool) :
    Decodes (readValueBody vf read v noneOk)
      (Item.array element dim items).encode
      (Item.array element dim items).declared
      ((Item.array element dim items).read vf v noneOk) := by
  have counted := Item.declaredAll_le_encodeAll items
  have payload : readPayload vf read TypeCode.ARRAY v noneOk = (do
      let av ← readArray vf read v
      throwing (validateValue vf v av.getArray)) := rfl
  have one : Scalar.none.encode.length = 1 := rfl
  rw [Item.encode] at fits small ⊢
  simp only [List.length_cons, List.length_append] at fits small
  rw [Item.declared, Item.read]
  refine Decodes.coded ?_
  rw [payload]
  unfold readArray
  have few : items.length < 2 ^ 31 := by omega
  have start := follows.startArray element dim few
    (by simp only [List.length_append]; omega)
  have values (av : ArrayValue) :=
    follows.readValues (by omega) v elements av
  have whole := start.bind fun av _ _ _ =>
    (values av).silent fun av _ _ _ =>
      Decodes.throwing (validateValue vf v av.getArray)
  simp only [bind_assoc] at whole ⊢
  refine whole.cast ?_ (Nat.add_assoc ..).symm
  simp only [List.append_assoc]

/-- What is read of an item that is no longer than this. -/
theorem Follows.body (follows : Follows vf size read)
    (noEnd : ImportsNoEnd vf) :
    Follows vf (size + 1) (readValueBody vf read) := by
  intro item clean fits v noneOk
  refine .of_small fun small => ?_
  cases item with
  | scalar s =>
      rw [Item.encode] at fits small ⊢
      rw [Item.declared, Item.read]
      exact follows.scalars.body s fits small v noneOk
  | array element dim items =>
      refine follows.scalars.body_array (fun ev => ?_) fits small v noneOk
      rw [Item.encode] at fits
      simp only [List.length_cons, List.length_append] at fits
      exact follows.elements noEnd clean (by omega) ev
  | struct type fields =>
      have counted := Item.declaredFields_le_encodeFields fields
      have payload : readPayload vf read TypeCode.CUSTOM v noneOk = (do
          let sv ← readStruct vf read
          let value ← call (vf.importCustomValue sv)
          throwing (validateValue vf v value)) := rfl
      rw [Item.encode] at fits small ⊢
      simp only [List.length_cons, List.length_append] at fits small
      rw [Item.declared, Item.read]
      refine Decodes.coded ?_
      rw [payload]
      have items := follows.readItems type fields clean (by omega)
        (by simp only [List.length_append]; omega)
      have whole := items.silent fun sv _ _ _ =>
        (Decodes.call (vf.importCustomValue sv)).silent fun value _ _ _ =>
          Decodes.throwing (validateValue vf v value)
      unfold readStruct
      simp only [Etch.Java.readItems, bind_assoc] at whole ⊢
      exact whole

theorem followsScalars_readValue (size : Nat) :
    FollowsScalars vf size (readValue vf size) := by
  induction size with
  | zero =>
      intro s fits
      have some := s.declared_lt_encode
      omega
  | succ size ih =>
      intro s fits v noneOk
      exact .of_small fun small => ih.body s fits small v noneOk

theorem follows_readValue (noEnd : ImportsNoEnd vf) (size : Nat) :
    Follows vf size (readValue vf size) := by
  induction size with
  | zero =>
      intro item clean fits
      have some := item.declared_lt_encode
      omega
  | succ size ih => exact ih.body noEnd

/-- The reader makes of an encoded message what its items say. -/
theorem readMessage_encodeMessage (noEnd : ImportsNoEnd vf) (factory : S)
    {type : Scalar} {fields : List (Scalar × Item)}
    (clean : CleanFields fields) {buf : FlexBuffer}
    (unread : buf.unread = encodeMessage type fields) :
    match readItems vf type fields factory with
    | .ok msg next => ∃ after, readMessage vf buf factory = .ok msg after ∧
        after.buf.unread = [] ∧ after.factory = next
    | .error thrown next => ∃ after,
        readMessage vf buf factory = .error thrown after ∧
          after.factory = next := by
  have counted := Item.declaredFields_le_encodeFields fields
  have declared := declaredMessage_le type fields
  have small := buf.avail_lt
  rw [← unread, buf.length_unread] at declared
  have size := congrArg List.length unread
  rw [buf.length_unread, encodeMessage, List.length_cons] at size
  have items := (follows_readValue noEnd buf.avail).readItems type fields
    clean (by simp only [List.length_append] at size; omega) (by omega)
  have message : Decodes (do
      let msg ← startMessage vf (readValue vf buf.avail)
      readKeysAndValues vf (readValue vf buf.avail) msg)
      (encodeMessage type fields) (declaredMessage type fields)
      (readItems vf type fields) := by
    unfold startMessage
    rw [bind_assoc]
    refine Decodes.coded ?_
    rw [if_neg (not_not.mpr rfl)]
    exact items
  have read := message [] (buf.avail - declaredMessage type fields) factory
    ⟨buf, buf.avail, factory, []⟩ (by omega)
    ⟨unread.trans (List.append_nil _).symm, by dsimp only; omega, rfl⟩
  cases done : readItems vf type fields factory with
  | ok msg next =>
      rw [done] at read
      obtain ⟨after, got, stands⟩ := read
      exact ⟨after, got, stands.unread, stands.factory⟩
  | error thrown next =>
      rw [done] at read
      exact read

end Follows

end BinaryTaggedDataInput

end Etch.Java
