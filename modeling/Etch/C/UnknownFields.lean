import Etch.C.AcceptedCounts
import Etch.C.EncodedItems
import Etch.Library.Reading

/-!
# What the C decoder skips

A value that the receiver does not know is read as any object is, so that it
is skipped where that can be read: the types inside it have to be known, and
the fields that these have must take their values.
-/

namespace Etch.C.BinaryTdi

open EtchFlexbuffer
open Etch.Library.BigEndian
open Etch.Library.Window
open Etch.Library.Reading

/-! ## Tokens -/

/-- These bytes are left to read. -/
def Holds (fbuf : EtchFlexbuffer) (bytes : List UInt8) : Prop :=
  fbuf.index ≤ fbuf.datalen ∧ fbuf.unread = bytes

/-- The value is read from what is in front, whatever is behind. -/
def Finds {R : Type} (reader : Reader R) (front : List UInt8) (value : R) :
    Prop :=
  Reads Holds (fun fbuf => some (reader fbuf)) front value

section Finds

variable {R S : Type} {reader : Reader R} {next : R → Reader S}
  {front front' : List UInt8} {value : R} {value' : S}

theorem Finds.read {fbuf : EtchFlexbuffer} {rest : List UInt8}
    (finds : Finds reader front value) (holds : Holds fbuf (front ++ rest)) :
    ∃ after, reader fbuf = (value, after) ∧ Holds after rest := by
  obtain ⟨after, done, holds'⟩ := finds fbuf rest holds
  exact ⟨after, Option.some.inj done, holds'⟩

/-- What follows goes on where a reader has stopped. -/
theorem bind_of_eq {fbuf after : EtchFlexbuffer}
    (done : reader fbuf = (value, after)) :
    (reader >>= next) fbuf = next value after := by
  change next (reader fbuf).1 (reader fbuf).2 = _
  rw [done]

theorem finds_pure (value : R) : Finds (pure value) [] value :=
  Reads.pure value

theorem Finds.bind (finds : Finds reader front value)
    (finds' : Finds (next value) front' value') :
    Finds (reader >>= next) (front ++ front') value' :=
  @Reads.bind _ _ _ _ _ (fun fbuf => some (reader fbuf))
    (fun value fbuf => some (next value fbuf)) _ _ _ _ finds finds'

theorem Finds.map (function : R → S) (finds : Finds reader front value) :
    Finds (function <$> reader) front (function value) :=
  Reads.map function finds

/-- What is read first takes all that is in front. -/
theorem Finds.bind_nil (finds : Finds reader front value)
    (finds' : Finds (next value) [] value') :
    Finds (reader >>= next) front value' := by
  have both := finds.bind finds'
  rwa [List.append_nil] at both

theorem finds_getNumber {size number : Nat} (small : number < 256 ^ size) :
    Finds (getNumber size) (toBytes size number) (some number) := by
  rintro fbuf rest ⟨order, unread⟩
  have length := congrArg List.length unread
  rw [length_unread order, List.length_append, length_toBytes] at length
  have inside : fbuf.index + size ≤ fbuf.datalen := by
    rw [avail_eq order] at length
    omega
  have bytes : window fbuf.buf fbuf.index (fbuf.index + size) =
      toBytes size number := by
    have taken := congrArg (List.take size) unread
    rw [EtchFlexbuffer.unread, take_window, Nat.min_eq_left inside,
      List.take_left' (length_toBytes _ _)] at taken
    exact taken
  refine ⟨fbuf.skip size, ?_, inside, ?_⟩
  · dsimp only
    rw [getNumber, if_neg (by omega), bytes, ofBytes_toBytes_of_lt small]
  · have dropped := congrArg (List.drop size) unread
    rwa [EtchFlexbuffer.unread, drop_window,
      List.drop_left' (length_toBytes _ _)] at dropped

theorem finds_getByte (byte : Int8) :
    Finds getByte [byte.toUInt8] (some byte) := by
  have small : byte.toUInt8.toNat < 256 ^ 1 := byte.toUInt8.toNat_lt
  have bytes : toBytes 1 byte.toUInt8.toNat = [byte.toUInt8] := by
    simp [toBytes]
  have same : Int8.ofNat byte.toUInt8.toNat = byte :=
    congrArg UInt8.toInt8 UInt8.ofNat_toNat
  have finds := (finds_getNumber small).map (Option.map Int8.ofNat)
  rwa [bytes, Option.map_some, same] at finds

theorem finds_getShort (value : Int16) :
    Finds getShort (toBytes 2 value.toUInt16.toNat) (some value) := by
  have small : value.toUInt16.toNat < 256 ^ 2 := value.toUInt16.toNat_lt
  have same : Int16.ofNat value.toUInt16.toNat = value :=
    congrArg UInt16.toInt16 UInt16.ofNat_toNat
  have finds := (finds_getNumber small).map (Option.map Int16.ofNat)
  rwa [Option.map_some, same] at finds

theorem finds_getInt32 (value : Int32) :
    Finds getInt32 (toBytes 4 value.toUInt32.toNat) (some value) := by
  have small : value.toUInt32.toNat < 256 ^ 4 := value.toUInt32.toNat_lt
  have same : Int32.ofNat value.toUInt32.toNat = value :=
    congrArg UInt32.toInt32 UInt32.ofNat_toNat
  have finds := (finds_getNumber small).map (Option.map Int32.ofNat)
  rwa [Option.map_some, same] at finds

theorem finds_getLong (value : Int64) :
    Finds getLong (toBytes 8 value.toUInt64.toNat) (some value) := by
  have small : value.toUInt64.toNat < 256 ^ 8 := value.toUInt64.toNat_lt
  have same : Int64.ofNat value.toUInt64.toNat = value :=
    congrArg UInt64.toInt64 UInt64.ofNat_toNat
  have finds := (finds_getNumber small).map (Option.map Int64.ofNat)
  rwa [Option.map_some, same] at finds

theorem finds_getFloat (bits : UInt32) :
    Finds getFloat (toBytes 4 bits.toNat) (some bits) := by
  have small : bits.toNat < 256 ^ 4 := bits.toNat_lt
  have finds := (finds_getNumber small).map (Option.map UInt32.ofNat)
  rwa [Option.map_some, UInt32.ofNat_toNat] at finds

theorem finds_getDouble (bits : UInt64) :
    Finds getDouble (toBytes 8 bits.toNat) (some bits) := by
  have small : bits.toNat < 256 ^ 8 := bits.toNat_lt
  have finds := (finds_getNumber small).map (Option.map UInt64.ofNat)
  rwa [Option.map_some, UInt64.ofNat_toNat] at finds

theorem finds_readValueRawint (integer : Integer) :
    Finds readValueRawint integer.encode (some integer.number) := by
  cases integer with
  | tiny value small =>
      refine (finds_getByte value).bind_nil ?_
      dsimp only
      rw [if_pos small]
      exact finds_pure _
  | byte value =>
      exact (finds_getByte _).bind
        ((finds_getByte value).bind_nil (finds_pure _))
  | short value =>
      exact (finds_getByte _).bind
        ((finds_getShort value).bind_nil (finds_pure _))
  | int value => exact (finds_getByte _).bind (finds_getInt32 value)

/-- The bytes that `etch_flexbuf_get_fully` copies are in front. -/
theorem finds_getFully (bytes : List UInt8) :
    Finds (getFully bytes.length) bytes bytes := by
  rintro fbuf rest ⟨order, unread⟩
  have length := congrArg List.length unread
  rw [length_unread order, List.length_append] at length
  have enough : bytes.length ≤ fbuf.avail := by omega
  have inside : fbuf.index + bytes.length ≤ fbuf.datalen := by
    rw [avail_eq order] at enough
    omega
  refine ⟨fbuf.skip bytes.length, ?_, inside, ?_⟩
  · dsimp only
    rw [getFully, Nat.min_eq_left enough]
    have taken := congrArg (List.take bytes.length) unread
    rw [EtchFlexbuffer.unread, take_window, Nat.min_eq_left inside,
      List.take_left] at taken
    rw [taken]
  · have dropped := congrArg (List.drop bytes.length) unread
    rwa [EtchFlexbuffer.unread, drop_window, List.drop_left] at dropped

theorem finds_copyBytes {length : Int32} {contents : List UInt8}
    (same : length.toInt = contents.length) :
    Finds (copyBytes length) contents (some contents) := by
  intro fbuf rest holds
  have small := length.toInt_lt
  have available := congrArg List.length holds.2
  rw [length_unread holds.1, List.length_append] at available
  have size : toSize length.toInt = contents.length := by
    unfold toSize
    omega
  obtain ⟨after, done, holds'⟩ := (finds_getFully contents).read holds
  refine ⟨after, ?_, holds'⟩
  unfold copyBytes
  dsimp only
  rw [if_pos ⟨by omega, by omega⟩]
  have natural : length.toInt.toNat = contents.length := by omega
  rw [natural, done]

theorem finds_readBytes {length : Integer} {contents : List UInt8}
    (same : length.number.toInt = contents.length) :
    Finds readBytes (length.encode ++ contents) (some contents) :=
  (finds_readValueRawint length).bind (finds_copyBytes same)

end Finds

section Receiver

variable {T F V O : Type} (vf : ValueFactory T F V O)

/-! ## Headers -/

theorem finds_readType (type : Integer) :
    Finds (readType vf) type.encode (vf.getTypeById type.number) :=
  (finds_readValueRawint type).bind_nil (finds_pure _)

theorem finds_startStruct {type count : Integer} {svtype : T}
    (known : vf.getTypeById type.number = some svtype) :
    Finds (startStruct vf) (type.encode ++ count.encode)
      (some (svtype, count.number)) := by
  have finds := finds_readType vf type
  rw [known] at finds
  exact finds.bind ((finds_readValueRawint count).bind_nil (finds_pure _))

/-- Nothing begins where the type is not known. -/
theorem startStruct_unknown {type : Integer} {fbuf : EtchFlexbuffer}
    {rest : List UInt8} (unknown : vf.getTypeById type.number = none)
    (holds : Holds fbuf (type.encode ++ rest)) :
    (startStruct vf fbuf).1 = none := by
  have finds := finds_readType vf type
  rw [unknown] at finds
  obtain ⟨after, done, -⟩ := finds.read holds
  rw [startStruct, bind_of_eq done]
  rfl

theorem finds_startElements {code : Int8} {content : ContentClass}
    (customType : Option T) {dim length : Integer}
    (native : getNativeType code = some content)
    (positive : 0 < dim.number.toInt) (nonneg : 0 ≤ length.number.toInt) :
    Finds (startElements code customType) (dim.encode ++ length.encode)
      (some ⟨code, customType, dim.number, length.number, content⟩) := by
  refine (finds_readValueRawint dim).bind
    ((finds_readValueRawint length).bind_nil ?_)
  dsimp only [Option.getD_some]
  rw [if_neg (by omega), allocArray, native]
  exact finds_pure _

theorem isTyped_iff (code : Int8) :
    isTyped code = true ↔
      code = Typecode.CUSTOM ∨ code = Typecode.STRUCT := by
  rw [isTyped, Bool.or_eq_true, decide_eq_true_iff, decide_eq_true_iff]

theorem finds_startArray {code : Int8} {content : ContentClass}
    {type : Option Integer} {customStructType : Option T}
    {dim length : Integer} (typed : type.isSome = isTyped code)
    (known : customType vf type = some customStructType)
    (native : getNativeType code = some content)
    (positive : 0 < dim.number.toInt) (nonneg : 0 ≤ length.number.toInt) :
    Finds (startArray vf)
      (code.toUInt8 :: ((type.map Integer.encode).getD [] ++
        (dim.encode ++ length.encode)))
      (some ⟨code, customStructType, dim.number, length.number,
        content⟩) := by
  have elements := finds_startElements customStructType native positive
    nonneg
  refine (finds_getByte code).bind ?_
  dsimp only [Option.getD_some]
  cases type with
  | none =>
      cases Option.some.inj known
      have plain : ¬(code = Typecode.CUSTOM ∨ code = Typecode.STRUCT) :=
        fun either => Bool.false_ne_true
          (typed.trans ((isTyped_iff code).mpr either))
      rw [if_neg plain]
      exact elements
  | some type =>
      obtain ⟨found, known', rfl⟩ := Option.map_eq_some_iff.mp known
      have finds := finds_readType vf type
      rw [known'] at finds
      rw [if_pos ((isTyped_iff code).mp typed.symm)]
      exact finds.bind elements

theorem startArray_unknown {code : Int8} {type : Option Integer}
    {fbuf : EtchFlexbuffer} {front rest : List UInt8}
    (typed : type.isSome = isTyped code)
    (unknown : customType vf type = none)
    (holds : Holds fbuf (code.toUInt8 ::
      ((type.map Integer.encode).getD [] ++ front) ++ rest)) :
    (startArray vf fbuf).1 = none := by
  cases type with
  | none => exact nomatch unknown
  | some type =>
      have finds := finds_readType vf type
      rw [Option.map_eq_none_iff.mp unknown] at finds
      obtain ⟨inside, code', holds'⟩ := (finds_getByte code).read
        (show Holds fbuf ([code.toUInt8] ++
          ((type.encode ++ front) ++ rest)) from holds)
      rw [List.append_assoc] at holds'
      obtain ⟨after, done, -⟩ := finds.read holds'
      rw [startArray, bind_of_eq code']
      dsimp only [Option.getD_some]
      rw [if_pos ((isTyped_iff code).mp typed.symm), bind_of_eq done]
      rfl

theorem exists_native {code : Int8} (mem : code ∈ contentCodes) :
    ∃ content, getNativeType code = some content := by
  have all : contentCodes.all
      (fun code => (getNativeType code).isSome) = true := by decide
  exact Option.isSome_iff_exists.mp (List.all_eq_true.mp all code mem)

/-! ## What is received -/

/-- Nothing but the end of data is taken for it. -/
structure Sound : Prop where
  validated : ∀ vtor value result, value.isEod = false →
    vf.validateValue vtor value = some result → result.isEod = false
  imported : ∀ svtype items value,
    vf.importCustomValue svtype items = some value → value.isEod = false

variable {vf} in
theorem validateValue_isEod (sound : Sound vf)
    {vtor : Option (EtchValidator V)} {value result : Value T F O}
    (goes : value.isEod = false)
    (done : validateValue vf vtor false (some value) = some result) :
    result.isEod = false := by
  cases vtor with
  | none => exact nomatch done
  | some vtor =>
      have done : vtor.validateValue vf value = some result := by
        rw [← done]
        unfold validateValue
        dsimp only [Option.bind_eq_bind, Option.bind_some]
        rw [Bool.and_false]
        rfl
      cases vtor with
      | int32 =>
          obtain ⟨number, -, rfl⟩ := Option.map_eq_some_iff.mp done
          rfl
      | object =>
          cases Option.some.inj done
          exact goes
      | field vtor => exact sound.validated vtor value result goes done

variable [DecidableEq F]

variable {vf} in
theorem Item.value?_isEod (sound : Sound vf)
    {vtor : Option (EtchValidator V)} {item : Item} {value : Value T F O}
    (found : item.value? vf vtor = some value) : value.isEod = false := by
  cases item with
  | null => exact validateValue_isEod sound rfl found
  | boolean _ => exact validateValue_isEod sound rfl found
  | integer number =>
      refine validateValue_isEod sound ?_ found
      cases number <;> rfl
  | long _ => exact validateValue_isEod sound rfl found
  | float _ => exact validateValue_isEod sound rfl found
  | double _ => exact validateValue_isEod sound rfl found
  | bytes _ _ => exact validateValue_isEod sound rfl found
  | emptyString => exact validateValue_isEod sound rfl found
  | string _ _ => exact validateValue_isEod sound rfl found
  | array code type dim length elements =>
      rw [Item.value?] at found
      split at found
      · obtain ⟨list, -, found⟩ := Option.bind_eq_some_iff.mp found
        exact validateValue_isEod sound rfl found
      · exact nomatch found
  | struct custom type count fields =>
      rw [Item.value?] at found
      split at found
      · exact nomatch found
      · obtain ⟨items, -, found⟩ := Option.bind_eq_some_iff.mp found
        cases custom with
        | false => exact validateValue_isEod sound rfl found
        | true =>
            rw [if_pos rfl] at found
            generalize made : vf.importCustomValue _ items = object at found
            cases object with
            | none => exact nomatch found
            | some object =>
                exact validateValue_isEod sound
                  (sound.imported _ _ _ made) found

/-- The value of an item, where what is unknown inside is skipped. -/
def Item.received? (vtor : Option (EtchValidator V)) (item : Item) :
    Option (Value T F O) :=
  if item.skips vf then item.value? vf vtor else none

def Item.receivedAll? (ev : Option (EtchValidator V)) (items : List Item) :
    Option (List (Value T F O)) :=
  if Item.skipsAll vf items then Item.values? vf ev items else none

def Item.receivedFields? (svtype : T) (items : List (F × Value T F O))
    (fields : List (Integer × Item)) : Option (List (F × Value T F O)) :=
  if Item.skipsFields vf svtype fields then
    Item.known? vf svtype items fields
  else none

theorem Item.receivedAll?_cons (ev : Option (EtchValidator V)) (item : Item)
    (items : List Item) :
    Item.receivedAll? vf ev (item :: items) =
      (item.received? vf ev).bind fun value =>
        (Item.receivedAll? vf ev items).map fun values =>
          value :: values := by
  unfold receivedAll? received?
  rw [skipsAll, values?]
  cases item.skips vf with
  | false => rfl
  | true =>
      cases skipsAll vf items with
      | true => rfl
      | false => cases item.value? vf ev <;> rfl

theorem Item.receivedFields?_unknown {svtype : T}
    (items : List (F × Value T F O)) {key : Integer} (item : Item)
    (fields : List (Integer × Item))
    (unknown : vf.getFieldById svtype key.number = none) :
    Item.receivedFields? vf svtype items ((key, item) :: fields) =
      (item.received? vf (some .object)).bind fun _ =>
        Item.receivedFields? vf svtype items fields := by
  unfold receivedFields? received?
  rw [skipsFields, known?, unknown]
  dsimp only
  cases item.skips vf with
  | false => rfl
  | true =>
      cases item.value? vf (some .object) with
      | none => rfl
      | some value => rfl

theorem Item.receivedFields?_known {svtype : T}
    (items : List (F × Value T F O)) {key : Integer} (item : Item)
    (fields : List (Integer × Item)) {keyField : F}
    (known : vf.getFieldById svtype key.number = some keyField) :
    Item.receivedFields? vf svtype items ((key, item) :: fields) =
      (item.received? vf (vf.getValidatorByName svtype keyField)).bind
        fun value =>
          (structvaluePut vf svtype items keyField value).bind fun items =>
            Item.receivedFields? vf svtype items fields := by
  unfold receivedFields? received?
  rw [skipsFields, known?, known]
  dsimp only
  cases item.skips vf with
  | false => rfl
  | true =>
      cases skipsFields vf svtype fields with
      | true => rfl
      | false =>
          cases item.value? vf (vf.getValidatorByName svtype keyField) with
          | none => rfl
          | some value =>
              change none =
                (structvaluePut vf svtype items keyField value).bind _
              cases structvaluePut vf svtype items keyField value <;> rfl

/-! ## Values that are read -/

/-- The input reads what is in front with this result, and leaves what is
behind where there is one. -/
def Yields (task : Task T F V O) (front : List UInt8)
    (result : Option (Value T F O)) : Prop :=
  ∀ fbuf rest, Holds fbuf (front ++ rest) →
    ∃ outcome, Announces vf task fbuf outcome ∧ outcome.result = result ∧
      (result.isSome → Holds outcome.flexbuf rest)

/-- The codes that are followed by a number or nothing. -/
def isScalar (objtype : Int8) : Bool :=
  !(objtype = Typecode.BYTES || objtype = Typecode.STRING ||
    objtype = Typecode.STRUCT || objtype = Typecode.CUSTOM ||
    objtype = Typecode.ARRAY)

omit [DecidableEq F] in
theorem opening_scalar {objtype : Int8} (scalar : isScalar objtype = true)
    {fbuf after : EtchFlexbuffer} {object : Option (Value T F O)}
    (done : readScalar objtype fbuf = (object, after)) :
    opening vf objtype fbuf = .whole ⟨object, [], after⟩ := by
  simp only [isScalar, Bool.not_eq_true', Bool.or_eq_false_iff,
    decide_eq_false_iff_not] at scalar
  obtain ⟨⟨⟨⟨bytes, string⟩, struct⟩, custom⟩, array⟩ := scalar
  rw [opening, if_neg bytes, if_neg string,
    if_neg (not_or.mpr ⟨struct, custom⟩), if_neg array, done]

omit [DecidableEq F] in
theorem checked_of_ne {objtype : Int8} (goes : objtype ≠ Typecode.NONE)
    (vtor : Option (EtchValidator V)) (isNoneOk : Bool)
    (object : Option (Value T F O)) :
    checked vf vtor isNoneOk objtype object =
      validateValue vf vtor false object := by
  rw [checked, decide_eq_false goes, Bool.and_false]

theorem yields_scalar {objtype : Int8} {payload : List UInt8}
    {object : Value T F O} (vtor : Option (EtchValidator V))
    (isNoneOk : Bool) (scalar : isScalar objtype = true)
    (finds : Finds (readScalar objtype) payload (some object)) :
    Yields vf (.valuex vtor isNoneOk) (objtype.toUInt8 :: payload)
      (checked vf vtor isNoneOk objtype (some object)) := by
  intro fbuf rest holds
  obtain ⟨inside, code, holds⟩ := (finds_getByte objtype).read
    (show Holds fbuf ([objtype.toUInt8] ++ (payload ++ rest)) from holds)
  obtain ⟨after, done, holds⟩ := finds.read holds
  exact ⟨_, .whole code (opening_scalar vf scalar done), rfl,
    fun _ => holds⟩

theorem yields_value {objtype : Int8} {payload : List UInt8}
    {object : Value T F O} (vtor : Option (EtchValidator V))
    (isNoneOk : Bool) (scalar : isScalar objtype = true)
    (goes : objtype ≠ Typecode.NONE)
    (finds : Finds (readScalar objtype) payload (some object)) :
    Yields vf (.valuex vtor isNoneOk) (objtype.toUInt8 :: payload)
      (validateValue vf vtor false (some object)) := by
  rw [← checked_of_ne vf goes]
  exact yields_scalar vf vtor isNoneOk scalar finds

theorem yields_end (ev : EtchValidator V) :
    Yields vf (.valuex (some ev) true) endCode (some .eodmarker) := by
  have finds : Finds (readScalar Typecode.NONE) []
      (some .eodmarker : Option (Value T F O)) := finds_pure _
  exact yields_scalar vf (some ev) true rfl finds

theorem yields_integer (vtor : Option (EtchValidator V)) (isNoneOk : Bool)
    (integer : Integer) :
    Yields vf (.valuex vtor isNoneOk) integer.encode
      (validateValue vf vtor false (some integer.object)) := by
  cases integer with
  | tiny value small =>
      have differs (code : Int8) (low : code < Typecode.MIN_TINY_INT) :
          value ≠ code := by
        rintro rfl
        exact Int8.not_lt.mpr (of_decide_eq_true small) low
      have scalar : isScalar value = true := by
        rw [isScalar, decide_eq_false (differs _ (by decide)),
          decide_eq_false (differs _ (by decide)),
          decide_eq_false (differs _ (by decide)),
          decide_eq_false (differs _ (by decide)),
          decide_eq_false (differs _ (by decide))]
        rfl
      have finds : Finds (readScalar value) []
          (some (.byte value) : Option (Value T F O)) := by
        rw [readScalar, if_neg (differs _ (by decide)),
          if_neg (differs _ (by decide)), if_neg (differs _ (by decide)),
          if_neg (differs _ (by decide)), if_neg (differs _ (by decide)),
          if_neg (differs _ (by decide)), if_neg (differs _ (by decide)),
          if_neg (differs _ (by decide)), if_neg (differs _ (by decide)),
          if_neg (differs _ (by decide)), if_neg (differs _ (by decide)),
          if_pos small]
        exact finds_pure _
      exact yields_value vf vtor isNoneOk scalar (differs _ (by decide))
        finds
  | byte value =>
      have finds : Finds (readScalar Typecode.BYTE) [value.toUInt8]
          (some (.byte value) : Option (Value T F O)) :=
        (finds_getByte value).bind_nil (finds_pure _)
      exact yields_value vf vtor isNoneOk rfl (by decide) finds
  | short value =>
      have finds : Finds (readScalar Typecode.SHORT)
          (toBytes 2 value.toUInt16.toNat)
          (some (.int16 value) : Option (Value T F O)) :=
        (finds_getShort value).bind_nil (finds_pure _)
      exact yields_value vf vtor isNoneOk rfl (by decide) finds
  | int value =>
      have finds : Finds (readScalar Typecode.INT)
          (toBytes 4 value.toUInt32.toNat)
          (some (.int32 value) : Option (Value T F O)) :=
        (finds_getInt32 value).bind_nil (finds_pure _)
      exact yields_value vf vtor isNoneOk rfl (by decide) finds

theorem yields_buffer {objtype : Int8} {length : Integer}
    {contents : List UInt8}
    {found : Option (List UInt8) → Option (Value T F O)}
    (vtor : Option (EtchValidator V)) (isNoneOk : Bool)
    (begins : ∀ fbuf, opening vf objtype fbuf =
      .whole (readBuffer found fbuf))
    (goes : objtype ≠ Typecode.NONE)
    (same : length.number.toInt = contents.length) :
    Yields vf (.valuex vtor isNoneOk)
      (objtype.toUInt8 :: (length.encode ++ contents))
      (validateValue vf vtor false (found (some contents))) := by
  intro fbuf rest holds
  obtain ⟨inside, code, holds⟩ := (finds_getByte objtype).read
    (show Holds fbuf
      ([objtype.toUInt8] ++ ((length.encode ++ contents) ++ rest)) from holds)
  obtain ⟨after, done, holds⟩ := (finds_readBytes same).read holds
  have begins := begins inside
  rw [readBuffer, done] at begins
  exact ⟨_, .whole code begins, checked_of_ne vf goes _ _ _,
    fun _ => holds⟩

/-! ## Elements -/

theorem yields_values_nil (header : ArrayHeader T) (ev : EtchValidator V)
    (list : List (Value T F O)) :
    Yields vf (.values header (some ev) list) endCode
      (some (.arrayvalue header list)) := by
  intro fbuf rest holds
  obtain ⟨⟨_, _, after⟩, ends, rfl, left⟩ := yields_end vf ev fbuf rest holds
  exact ⟨_, .all ends rfl, rfl, fun _ => left rfl⟩

/-- One more element, unless there is none. -/
theorem yields_values_cons {header : ArrayHeader T}
    {ev : Option (EtchValidator V)} {list : List (Value T F O)}
    {front front' : List UInt8} {value : Option (Value T F O)}
    {result : Value T F O → Option (Value T F O)}
    (first : Yields vf (.valuex ev true) front value)
    (goes : ∀ object, value = some object → object.isEod = false)
    (others : ∀ object, value = some object →
      Yields vf (.values header ev (list ++ [object])) front'
        (result object)) :
    Yields vf (.values header ev list) (front ++ front')
      (value.bind result) := by
  intro fbuf rest holds
  rw [List.append_assoc] at holds
  obtain ⟨⟨found, accepted, inside⟩, element, same, left⟩ :=
    first fbuf _ holds
  obtain rfl : value = found := same.symm
  cases value with
  | none => exact ⟨_, .unread element, rfl, nofun⟩
  | some object =>
      obtain ⟨outcome, more, same, left'⟩ :=
        others object rfl inside rest (left rfl)
      exact ⟨_, .element element (goes object rfl) more, same, left'⟩

/-! ## Fields -/

omit [DecidableEq F] in
theorem validateValue_integer (integer : Integer) :
    validateValue vf (some .int32) false
        (some (integer.object : Value T F O)) =
      some (.int32 integer.number) := by
  have number : (integer.object : Value T F O).int32?.map Value.int32 =
      some (.int32 integer.number : Value T F O) := by
    rw [integer.int32?_object]
    rfl
  rw [← number]
  unfold validateValue
  dsimp only [Option.bind_eq_bind, Option.bind_some]
  rw [Bool.and_false]
  rfl

theorem yields_keysValues_nil (svtype : T) (items : List (F × Value T F O)) :
    Yields vf (.keysValues svtype items) endCode
      (some (.structvalue svtype items)) := by
  intro fbuf rest holds
  obtain ⟨⟨_, _, after⟩, ends, rfl, left⟩ :=
    yields_end vf .int32 fbuf rest holds
  exact ⟨_, .last ends rfl, rfl, fun _ => left rfl⟩

theorem isSome_of_memberStored {svtype : T} {id : Int32}
    {items items' : List (F × Value T F O)} {value : Option (Value T F O)}
    (stores : memberStored vf svtype items id value = some items') :
    value.isSome := by
  cases value with
  | some value => rfl
  | none =>
      have nothing : memberStored vf svtype items id none = none := by
        unfold memberStored
        cases vf.getFieldById svtype id <;> rfl
      exact nomatch nothing.symm.trans stores

/-- One more field, unless it is refused. -/
theorem yields_keysValues_cons {svtype : T} {key : Integer}
    (items : List (F × Value T F O)) {front front' : List UInt8}
    {value : Option (Value T F O)}
    {result : List (F × Value T F O) → Option (Value T F O)}
    (first : Yields vf
      (.valuex (memberVtor vf svtype key.number) false) front value)
    (others : ∀ items',
      memberStored vf svtype items key.number value = some items' →
      Yields vf (.keysValues svtype items') front' (result items')) :
    Yields vf (.keysValues svtype items) ((key.encode ++ front) ++ front')
      ((memberStored vf svtype items key.number value).bind result) := by
  intro fbuf rest holds
  rw [List.append_assoc, List.append_assoc] at holds
  have key' := yields_integer vf (some .int32) true key
  rw [validateValue_integer] at key'
  obtain ⟨⟨_, accepted, inside⟩, announces, rfl, left⟩ := key' fbuf _ holds
  obtain ⟨⟨found, accepted', after⟩, member, same, left'⟩ :=
    first inside _ (left rfl)
  obtain rfl : value = found := same.symm
  generalize stores : memberStored vf svtype items key.number value = stored
  cases stored with
  | none => exact ⟨_, .refused announces rfl member stores, rfl, nofun⟩
  | some items' =>
      obtain ⟨outcome, more, same, left''⟩ := others items' stores after rest
        (left' (isSome_of_memberStored vf stores))
      exact ⟨_, .member announces rfl member stores more, same, left''⟩

/-! ## Structs and arrays -/

/-- The code of a struct or of a custom value. -/
def structCode (custom : Bool) : Int8 :=
  if custom then Typecode.CUSTOM else Typecode.STRUCT

omit [DecidableEq F] in
theorem opening_struct (custom : Bool) (fbuf : EtchFlexbuffer) :
    opening vf (structCode custom) fbuf = match startStruct vf fbuf with
      | (none, inside) => .whole ⟨none, [], inside⟩
      | (some (svtype, itemcount), inside) =>
          .struct svtype itemcount inside := by
  rw [opening, if_neg (by cases custom <;> decide),
    if_neg (by cases custom <;> decide)]
  exact if_pos (by cases custom <;> decide)

theorem received?_struct {custom : Bool} {type count : Integer}
    {fields : List (Integer × Item)} {svtype : T}
    (known : vf.getTypeById type.number = some svtype)
    (vtor : Option (EtchValidator V)) :
    Item.received? vf vtor (.struct custom type count fields) =
      validateValue vf vtor false (ofStruct vf (structCode custom)
        ((Item.receivedFields? vf svtype [] fields).map
          (.structvalue svtype))) := by
  unfold Item.received? Item.receivedFields?
  rw [Item.skips, Item.value?, known]
  dsimp only
  by_cases skips : Item.skipsFields vf svtype fields = true
  · rw [if_pos skips, if_pos skips]
    cases Item.known? vf svtype [] fields <;> cases custom <;> rfl
  · rw [if_neg skips, if_neg skips]
    cases custom <;> rfl

theorem yields_struct {custom : Bool} {type count : Integer}
    {fields : List (Integer × Item)} (vtor : Option (EtchValidator V))
    (isNoneOk : Bool)
    (inside : ∀ svtype, vf.getTypeById type.number = some svtype →
      Yields vf (.keysValues svtype [])
        (Item.encodeFields fields ++ endCode)
        ((Item.receivedFields? vf svtype [] fields).map
          (.structvalue svtype))) :
    Yields vf (.valuex vtor isNoneOk)
      (Item.struct custom type count fields).encode
      (Item.received? vf vtor (.struct custom type count fields)) := by
  intro fbuf rest holds
  have goes : structCode custom ≠ Typecode.NONE := by
    cases custom <;> decide
  obtain ⟨body, code, holds⟩ := (finds_getByte (structCode custom)).read
    (show Holds fbuf ([(structCode custom).toUInt8] ++
      (((type.encode ++ count.encode) ++
        (Item.encodeFields fields ++ endCode)) ++ rest)) by
      rw [Item.encode] at holds
      exact holds)
  rw [List.append_assoc] at holds
  cases known : vf.getTypeById type.number with
  | none =>
      rw [List.append_assoc] at holds
      have start := startStruct_unknown vf known holds
      have begins : opening vf (structCode custom) body =
          (.whole ⟨none, [], (startStruct vf body).2⟩ :
            Opening T F O) := by
        rw [opening_struct]
        generalize startStruct vf body = started at start ⊢
        obtain ⟨header, after⟩ := started
        obtain rfl : header = none := start
        rfl
      refine ⟨_, .whole code begins, ?_⟩
      have nothing : Item.received? vf vtor
          (.struct custom type count fields) = none := by
        unfold Item.received?
        rw [Item.skips, Item.value?, known]
        rfl
      rw [nothing]
      exact ⟨rfl, nofun⟩
  | some svtype =>
      obtain ⟨start, done, holds⟩ := (finds_startStruct vf known).read holds
      have begins : opening vf (structCode custom) body =
          (.struct svtype count.number start : Opening T F O) := by
        rw [opening_struct, done]
      obtain ⟨outcome, announces, same, left⟩ :=
        inside svtype known start rest holds
      refine ⟨_, .struct code begins announces, ?_, fun some => left ?_⟩
      · rw [received?_struct vf known, ← same]
        exact checked_of_ne vf goes _ _ _
      · rw [received?_struct vf known] at some
        cases found : Item.receivedFields? vf svtype [] fields with
        | some items => rfl
        | none =>
            rw [found] at some
            cases custom <;> exact nomatch some

theorem received?_array {code : Int8} {type : Option Integer}
    {dim length : Integer} {elements : List Item} {ev : EtchValidator V}
    {customStructType : Option T} {content : ContentClass}
    {vtor : EtchValidator V}
    (elementwise : vtor.elementValidator vf = some ev)
    (known : customType vf type = some customStructType)
    (native : getNativeType code = some content) :
    Item.received? vf (some vtor) (.array code type dim length elements) =
      validateValue vf (some vtor) false
        ((Item.receivedAll? vf (some ev) elements).map (.arrayvalue
          ⟨code, customStructType, dim.number, length.number,
            content⟩)) := by
  unfold Item.received? Item.receivedAll?
  rw [Item.skips, Item.value?, Option.bind_some, elementwise, known, native]
  dsimp only
  cases Item.skipsAll vf elements with
  | false => rfl
  | true =>
      rw [if_pos rfl, if_pos rfl]
      cases Item.values? vf (some ev) elements <;> rfl

omit [DecidableEq F] in
theorem opening_array (fbuf : EtchFlexbuffer) :
    (opening vf Typecode.ARRAY fbuf : Opening T F O) =
      match startArray vf fbuf with
      | (none, inside) => .whole ⟨none, [], inside⟩
      | (some header, inside) => .array header inside := rfl

/-- Nothing is read without a validator. -/
theorem Announces.result_none {isNoneOk : Bool} {fbuf : EtchFlexbuffer}
    {outcome : Outcome (Value T F O)}
    (announces : Announces vf (.valuex none isNoneOk) fbuf outcome) :
    outcome.result = none := by
  cases announces with
  | short ends => rfl
  | whole code begins => exact checked_none vf _ _ _
  | struct code begins body => exact checked_none vf _ _ _
  | arrayless code begins => rfl

theorem exists_announces_values (header : ArrayHeader T)
    {fbuf : EtchFlexbuffer} (order : fbuf.index ≤ fbuf.datalen) :
    ∃ outcome, Announces vf (.values header none []) fbuf outcome ∧
      outcome.result = none := by
  obtain ⟨⟨result, accepted, after⟩, run⟩ :=
    exists_read vf (.valuex none true) order (Nat.le_refl _)
  have element := announces_of_read vf run
  obtain rfl : result = none := element.result_none
  exact ⟨_, .unread element, rfl⟩

theorem received?_array_none {code : Int8} {type : Option Integer}
    {dim length : Integer} {elements : List Item}
    {vtor : Option (EtchValidator V)}
    (absent : vtor.bind (EtchValidator.elementValidator vf) = none ∨
      customType vf type = none) :
    Item.received? vf vtor (.array code type dim length elements) =
      none := by
  have nothing : Item.value? vf vtor
      (.array code type dim length elements) = none := by
    rw [Item.value?]
    rcases absent with unchecked | unknown
    · rw [unchecked]
    · rw [unknown]
      split
      · rename_i found _
        exact nomatch found
      · rfl
  unfold Item.received?
  rw [nothing, ite_self]

theorem yields_array {code : Int8} {type : Option Integer}
    {dim length : Integer} {elements : List Item}
    (formed : (Item.array code type dim length elements).Formed)
    (vtor : Option (EtchValidator V)) (isNoneOk : Bool)
    (inside : ∀ header ev, Yields vf (.values header (some ev) [])
      (Item.encodeAll elements ++ endCode)
      ((Item.receivedAll? vf (some ev) elements).map
        (.arrayvalue header))) :
    Yields vf (.valuex vtor isNoneOk)
      (Item.array code type dim length elements).encode
      (Item.received? vf vtor (.array code type dim length elements)) := by
  obtain ⟨mem, typed, positive, nonneg, -⟩ := formed
  obtain ⟨content, native⟩ := exists_native mem
  intro fbuf rest holds
  have goes : Typecode.ARRAY ≠ Typecode.NONE := by decide
  obtain ⟨body, begun, holds⟩ := (finds_getByte Typecode.ARRAY).read
    (show Holds fbuf ([Typecode.ARRAY.toUInt8] ++
      (((code.toUInt8 :: ((type.map Integer.encode).getD [] ++
        (dim.encode ++ length.encode))) ++
        (Item.encodeAll elements ++ endCode)) ++ rest)) by
      rw [Item.encode] at holds
      exact holds)
  rw [List.append_assoc] at holds
  cases known : customType vf type with
  | none =>
      have start := startArray_unknown vf typed known holds
      have begins : opening vf Typecode.ARRAY body =
          (.whole ⟨none, [], (startArray vf body).2⟩ : Opening T F O) := by
        rw [opening_array]
        generalize startArray vf body = started at start ⊢
        obtain ⟨header, after⟩ := started
        obtain rfl : header = none := start
        rfl
      refine ⟨_, .whole begun begins, ?_⟩
      rw [received?_array_none vf (.inr known)]
      exact ⟨rfl, nofun⟩
  | some customStructType =>
      obtain ⟨start, done, holds⟩ :=
        (finds_startArray vf typed known native positive nonneg).read holds
      have begins : opening vf Typecode.ARRAY body =
          (.array ⟨code, customStructType, dim.number, length.number,
            content⟩ start : Opening T F O) := by
        rw [opening_array, done]
      cases vtor with
      | none =>
          refine ⟨_, .arrayless begun begins, ?_⟩
          rw [received?_array_none vf (.inl rfl)]
          exact ⟨rfl, nofun⟩
      | some vtor =>
          cases elementwise : vtor.elementValidator vf with
          | none =>
              obtain ⟨outcome, announces, same⟩ :=
                exists_announces_values vf _ holds.1
              rw [← elementwise] at announces
              refine ⟨_, .array begun begins announces, ?_⟩
              rw [received?_array_none vf (.inl
                (show (some vtor).bind _ = none from elementwise))]
              refine ⟨?_, nofun⟩
              change checked vf _ _ _ outcome.result = none
              rw [same]
              rfl
          | some ev =>
              obtain ⟨outcome, announces, same, left⟩ :=
                inside _ ev start rest holds
              rw [← elementwise] at announces
              refine ⟨_, .array begun begins announces, ?_,
                fun some => left ?_⟩
              · rw [received?_array vf elementwise known native, ← same]
                exact checked_of_ne vf goes _ _ _
              · rw [received?_array vf elementwise known native] at some
                cases found : Item.receivedAll? vf (.some ev) elements with
                | some list => rfl
                | none =>
                    rw [found] at some
                    exact nomatch some

/-! ## Items -/

/-- One more field of a struct that is received. -/
theorem bind_memberStored (svtype : T) (items : List (F × Value T F O))
    (key : Integer) (item : Item) (fields : List (Integer × Item)) :
    ((memberStored vf svtype items key.number
      (item.received? vf (memberVtor vf svtype key.number))).bind
        fun items' => (Item.receivedFields? vf svtype items' fields).map
          (Value.structvalue svtype)) =
      (Item.receivedFields? vf svtype items ((key, item) :: fields)).map
        (Value.structvalue svtype) := by
  unfold memberVtor memberStored
  cases found : vf.getFieldById svtype key.number with
  | none =>
      rw [Item.receivedFields?_unknown vf items item fields found]
      dsimp only
      cases item.received? vf (some .object) <;> rfl
  | some keyField =>
      rw [Item.receivedFields?_known vf items item fields found]
      dsimp only
      rw [Option.map_bind, Option.bind_assoc]
      congr 1
      funext value
      exact (Option.map_bind ..).symm

variable {vf} in
theorem Item.received?_isEod (sound : Sound vf)
    {vtor : Option (EtchValidator V)} {item : Item} {value : Value T F O}
    (found : item.received? vf vtor = some value) :
    value.isEod = false := by
  unfold Item.received? at found
  split_ifs at found
  exact value?_isEod sound found

mutual

theorem yields_item (sound : Sound vf) (vtor : Option (EtchValidator V))
    (isNoneOk : Bool) : ∀ item : Item, item.Formed →
      Yields vf (.valuex vtor isNoneOk) item.encode
        (item.received? vf vtor)
  | .null, _ =>
      yields_value vf vtor isNoneOk rfl (by decide) (finds_pure _)
  | .boolean false, _ =>
      yields_value vf vtor isNoneOk rfl (by decide) (finds_pure _)
  | .boolean true, _ =>
      yields_value vf vtor isNoneOk rfl (by decide) (finds_pure _)
  | .integer value, _ => yields_integer vf vtor isNoneOk value
  | .long value, _ =>
      yields_value vf vtor isNoneOk rfl (by decide)
        ((finds_getLong value).bind_nil (finds_pure _))
  | .float bits, _ =>
      yields_value vf vtor isNoneOk rfl (by decide)
        ((finds_getFloat bits).bind_nil (finds_pure _))
  | .double bits, _ =>
      yields_value vf vtor isNoneOk rfl (by decide)
        ((finds_getDouble bits).bind_nil (finds_pure _))
  | .bytes _ _, same => by
      have begins (fbuf : EtchFlexbuffer) :
          opening vf Typecode.BYTES fbuf = .whole (readBuffer
            (fun buf => some (.nativearray (buf.getD []))) fbuf) := rfl
      exact yields_buffer vf vtor isNoneOk begins (by decide) same
  | .emptyString, _ =>
      yields_value vf vtor isNoneOk rfl (by decide) (finds_pure _)
  | .string _ _, same => by
      have begins (fbuf : EtchFlexbuffer) :
          opening vf Typecode.STRING fbuf =
            .whole (readBuffer (Option.map .string) fbuf) := rfl
      exact yields_buffer vf vtor isNoneOk begins (by decide) same
  | .array _ _ _ _ elements, formed =>
      yields_array vf formed vtor isNoneOk fun header ev =>
        yields_elements sound header ev [] elements formed.2.2.2.2
  | .struct _ _ _ fields, formed =>
      yields_struct vf vtor isNoneOk fun svtype _ =>
        yields_fields sound svtype [] fields formed

theorem yields_elements (sound : Sound vf) (header : ArrayHeader T)
    (ev : EtchValidator V) (list : List (Value T F O)) :
    ∀ items : List Item, Item.FormedAll items →
      Yields vf (.values header (some ev) list)
        (Item.encodeAll items ++ endCode)
        ((Item.receivedAll? vf (some ev) items).map fun values =>
          .arrayvalue header (list ++ values))
  | [], _ => by
      change Yields vf _ _ (some (.arrayvalue header (list ++ [])))
      rw [List.append_nil]
      exact yields_values_nil vf header ev list
  | item :: items, formed => by
      have first := yields_item sound (some ev) true item formed.1
      have yields := yields_values_cons vf first
        (fun object found => Item.received?_isEod sound found)
        fun object _ => yields_elements sound header ev (list ++ [object])
          items formed.2
      rw [Item.receivedAll?_cons, Item.encodeAll, List.append_assoc,
        Option.map_bind]
      simp only [Function.comp_def, Option.map_map]
      simp only [List.append_assoc, List.singleton_append] at yields
      exact yields

theorem yields_fields (sound : Sound vf) (svtype : T)
    (items : List (F × Value T F O)) :
    ∀ fields : List (Integer × Item), Item.FormedFields fields →
      Yields vf (.keysValues svtype items)
        (Item.encodeFields fields ++ endCode)
        ((Item.receivedFields? vf svtype items fields).map
          (.structvalue svtype))
  | [], _ => yields_keysValues_nil vf svtype items
  | (key, item) :: fields, formed => by
      have first := yields_item sound (memberVtor vf svtype key.number) false
        item formed.1
      have yields := yields_keysValues_cons vf items first fun items' _ =>
        yields_fields sound svtype items' fields formed.2
      rw [bind_memberStored] at yields
      rw [Item.encodeFields, List.append_assoc]
      exact yields

end

/-! ## Messages -/

/-- The fields that `bintdi_end_message` asks for. -/
structure Builtins (F : Type) where
  /-- `_mf__in_reply_to` -/
  inReplyTo : F
  /-- `_mf_msg` -/
  msg : F
  /-- `_mf_result` -/
  result : F

/-- `bintdi_end_message`, which copies the exception of a reply to the place
of its result, if that is free; the result of this is not looked at. -/
def endMessage (builtins : Builtins F) (isException : O → Bool) :
    Value T F O → Value T F O
  | .structvalue svtype items =>
      match items.lookup builtins.inReplyTo, items.lookup builtins.msg with
      | some _, some (.object excpobj) =>
          if isException excpobj then
            .structvalue svtype ((structvaluePut vf svtype items
              builtins.result (.object excpobj)).getD items)
          else
            .structvalue svtype items
      | _, _ => .structvalue svtype items
  | value => value

/-- What `bintdi_read_message` returns; none is `NULL`. -/
def readMessage (builtins : Builtins F) (isException : O → Bool)
    (buf : List UInt8) : Option (Value T F O) :=
  ((readMessageFrom vf buf).bind Outcome.result).map
    (endMessage vf builtins isException)

end Receiver

/-- A message as it is encoded. -/
structure EncodedMessage where
  type : Integer
  count : Integer
  fields : List (Integer × Item)

def EncodedMessage.encode (message : EncodedMessage) : List UInt8 :=
  [CURRENT_VERSION.toUInt8] ++ ((message.type.encode ++
    message.count.encode) ++ (Item.encodeFields message.fields ++ endCode))

def EncodedMessage.Formed (message : EncodedMessage) : Prop :=
  Item.FormedFields message.fields

section Messages

variable {T F V O : Type} [DecidableEq F] {vf : ValueFactory T F V O}
  {message : EncodedMessage} {svtype : T}

omit [DecidableEq F] in
theorem finds_startMessage
    (known : vf.getTypeById message.type.number = some svtype) :
    Finds (startMessage vf)
      ([CURRENT_VERSION.toUInt8] ++
        (message.type.encode ++ message.count.encode))
      (some (svtype, message.count.number)) := by
  have finds := finds_readType vf message.type
  rw [known] at finds
  exact (finds_getByte CURRENT_VERSION).bind (finds.bind
    ((finds_readValueRawint message.count).bind_nil (finds_pure _)))

/-- A message is read as what is received of its fields. -/
theorem readMessageFrom_encode (sound : Sound vf) (formed : message.Formed)
    (known : vf.getTypeById message.type.number = some svtype) :
    (readMessageFrom vf message.encode).bind Outcome.result =
      (Item.receivedFields? vf svtype [] message.fields).map
        (.structvalue svtype) := by
  have holds : Holds (newFlexbufferFrom message.encode)
      (([CURRENT_VERSION.toUInt8] ++
        (message.type.encode ++ message.count.encode)) ++
        ((Item.encodeFields message.fields ++ endCode) ++ [])) := by
    refine ⟨Nat.zero_le _, ?_⟩
    rw [unread_newFlexbufferFrom, List.append_nil, List.append_assoc]
    rfl
  obtain ⟨start, done, holds⟩ := (finds_startMessage known).read holds
  obtain ⟨body, announces, same, -⟩ :=
    yields_fields vf sound svtype [] message.fields formed start [] holds
  obtain ⟨outcome, run, -⟩ := exists_readMessageFrom vf message.encode
  have run' := run
  unfold readMessageFrom readMessageWithin at run'
  rw [done] at run'
  obtain ⟨body', reads, rfl⟩ := Option.map_eq_some_iff.mp run'
  have announces' := @announces_of_read _ _ _ _ vf _ _
    (.keysValues svtype []) _ _ reads
  rw [run, ← same, ← announces'.unique vf announces]
  rfl

end Messages

/-! ## A type that is not known -/

/-- A factory with one type that has one field, an integer. -/
def onceFactory : ValueFactory Unit Unit Unit Unit where
  getTypeById := fun id => if id = 1 then some () else none
  getFieldById := fun _ id => if id = 2 then some () else none
  getValidatorByName := fun _ _ => some .int32
  validate := fun _ _ => true
  validateValue := fun _ => some
  elementValidator := fun _ => none
  importCustomValue := fun _ _ => none
  validateWrite := false

theorem sound_onceFactory : Sound onceFactory where
  validated := by
    intro vtor value result goes done
    cases Option.some.inj done
    exact goes
  imported := fun _ _ _ => nofun

/-- The field that is known, in front of one that is not. -/
def knownFirst (unknown : Item) : EncodedMessage where
  type := .tiny 1 rfl
  count := .tiny 2 rfl
  fields := [(.tiny 2 rfl, .integer (.tiny 5 rfl)), (.tiny 3 rfl, unknown)]

end Etch.C.BinaryTdi
