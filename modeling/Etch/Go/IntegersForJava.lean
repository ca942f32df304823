import Etch.Go.IntegerRoundTrip
import Etch.Java.EndMarker
import Etch.Java.IntegerArrays
import Etch.Library.Fueled

/-!
# Integers that are written by Go and read by Go and by Java

The encoder writes a number at the least width that it has room in, as the
Java encoder does.  So Java reads whatever Go has not converted to another
number, and an array whose elements are not taken for its end.
-/

namespace Etch.Go

open Etch.Library.BigEndian
open Java (Width)
open Java.FlexBuffer (numberBytes)

/-! ## The bytes of a number -/

theorem emod_toInt {width : Nat} (value : BitVec width) :
    (value.toInt % 2 ^ width).toNat = value.toNat := by
  have cast : ((2 ^ width : Nat) : Int) = 2 ^ width := by
    push_cast
    rfl
  rw [BitVec.toInt_eq_toNat_bmod, ← cast, Int.bmod_emod, ← Int.natCast_mod,
    Int.toNat_natCast, Nat.mod_eq_of_lt value.isLt]

theorem numberBytes_short (value : Int16) :
    numberBytes 2 value.toInt = toBytes 2 value.toUInt16.toNat := by
  have power : (256 : Int) ^ 2 = 2 ^ 16 := by norm_num
  rw [numberBytes, power]
  exact congrArg _ (emod_toInt value.toBitVec)

theorem numberBytes_int (value : Int32) :
    numberBytes 4 value.toInt = toBytes 4 value.toUInt32.toNat := by
  have power : (256 : Int) ^ 4 = 2 ^ 32 := by norm_num
  rw [numberBytes, power]
  exact congrArg _ (emod_toInt value.toBitVec)

theorem numberBytes_long (value : Int64) :
    numberBytes 8 value.toInt = toBytes 8 value.toUInt64.toNat := by
  have power : (256 : Int) ^ 8 = 2 ^ 64 := by norm_num
  rw [numberBytes, power]
  exact congrArg _ (emod_toInt value.toBitVec)

namespace Integer

/-- The integer is not coded wider than it has to be. -/
def Least : Integer → Prop
  | tiny _ _ => True
  | byte value => value.toInt < -64
  | short value => ¬(-128 ≤ value.toInt ∧ value.toInt ≤ 127)
  | int value => ¬(-32768 ≤ value.toInt ∧ value.toInt ≤ 32767)
  | long value => ¬(-2147483648 ≤ value.toInt ∧ value.toInt ≤ 2147483647)

/-- It has the bytes that Java writes for its number. -/
theorem encode_of_least {integer : Integer} (least : integer.Least) :
    integer.encode = Java.Scalar.integerBytes integer.number := by
  unfold Java.Scalar.integerBytes
  cases integer with
  | tiny value small =>
      have lower : -64 ≤ value.toInt := Int8.le_iff_toInt_le.mp small
      have upper := value.toInt_lt
      rw [number, if_pos (by omega), Java.FlexBuffer.numberBytes_one]
      rfl
  | byte value =>
      have lower := value.le_toInt
      have below : value.toInt < -64 := least
      rw [number, if_neg (by omega), if_pos (by omega),
        Java.FlexBuffer.numberBytes_one]
      rfl
  | short value =>
      have lower := value.le_toInt
      have upper := value.toInt_lt
      have wide : ¬(-128 ≤ value.toInt ∧ value.toInt ≤ 127) := least
      rw [number, if_neg (by omega), if_neg wide, if_pos (by omega),
        numberBytes_short]
      rfl
  | int value =>
      have lower := value.le_toInt
      have upper := value.toInt_lt
      have wide : ¬(-32768 ≤ value.toInt ∧ value.toInt ≤ 32767) := least
      rw [number, if_neg (by omega), if_neg (by omega), if_neg wide,
        if_pos (by omega), numberBytes_int]
      rfl
  | long value =>
      have wide : ¬(-2147483648 ≤ value.toInt ∧
        value.toInt ≤ 2147483647) := least
      rw [number, if_neg (by omega), if_neg (by omega), if_neg (by omega),
        if_neg wide, numberBytes_long]
      rfl

end Integer

theorem least_coded8 (val : Int8) : (coded8 val).Least := by
  unfold coded8
  split_ifs with small
  · trivial
  · exact not_le.mp fun above => small (Int8.le_iff_toInt_le.mpr above)

theorem least_coded16 (val : Int16) : (coded16 val).Least := by
  unfold coded16
  split_ifs with small
  · exact least_coded8 _
  · exact fun both => small ⟨Int16.le_iff_toInt_le.mpr both.2,
      Int16.le_iff_toInt_le.mpr both.1⟩

theorem least_coded32 (val : Int32) : (coded32 val).Least := by
  unfold coded32
  split_ifs with small
  · exact least_coded16 _
  · intro both
    have above : val.toInt ≤ 65535 := by omega
    have below : -65536 ≤ val.toInt := by omega
    exact small ⟨Int32.le_iff_toInt_le.mpr above,
      Int32.le_iff_toInt_le.mpr below⟩

theorem least_coded64 (val : Int64) : (coded64 val).Least := by
  unfold coded64
  split_ifs with small
  · exact least_coded32 _
  · intro both
    have above : val.toInt ≤ 4294967295 := by omega
    have below : -4294967296 ≤ val.toInt := by omega
    exact small ⟨Int64.le_iff_toInt_le.mpr above,
      Int64.le_iff_toInt_le.mpr below⟩

namespace IntKind

/-- A number in no gap has the bytes that Java writes for it. -/
theorem encode_coded (kind : IntKind) {number : kind.Number}
    (notGap : ¬Gap (kind.toInt number)) :
    (kind.coded number).encode =
      Java.Scalar.integerBytes (kind.toInt number) := by
  have least : (kind.coded number).Least := by
    cases kind with
    | int8 => exact least_coded8 number
    | int16 => exact least_coded16 number
    | int32 => exact least_coded32 number
    | int64 => exact least_coded64 number
  rw [Integer.encode_of_least least, number_coded,
    (kind.kept_eq_iff number).mpr notGap]

def width : IntKind → Width
  | int8 => .byte
  | int16 => .short
  | int32 => .int
  | int64 => .long

theorem inRange (kind : IntKind) (number : kind.Number) :
    kind.width.InRange (kind.toInt number) := by
  have inside := kind.inside number
  cases kind <;> exact inside

theorem encode_integerOf (kind : IntKind) {number : kind.Number}
    (notGap : ¬Gap (kind.toInt number)) :
    (Java.integerOf (kind.toInt number)).encode =
      (kind.coded number).encode := by
  rw [Java.integerOf, Java.Scalar.encode,
    (kind.inRange number).toInt_ofInt, kind.encode_coded notGap]

theorem encodeAll_integers (kind : IntKind) {numbers : List kind.Number}
    (kept : ∀ number ∈ numbers, Kept (kind.toInt number)) :
    Java.Item.encodeAll ((numbers.map kind.toInt).map fun number =>
      .scalar (Java.integerOf number)) = numbers.flatMap kind.written := by
  induction numbers with
  | nil => rfl
  | cons number numbers ih =>
      obtain ⟨⟨notGap, ordinary⟩, rest⟩ := List.forall_mem_cons.mp kept
      have plain : ¬kind.IsNone (kind.toInt number) := fun none =>
        ordinary none.2
      rw [List.map_cons, List.map_cons, Java.Item.encodeAll,
        Java.Item.encode, kind.encode_integerOf notGap, ih rest,
        List.flatMap_cons, written, if_neg plain]

/-- A slice has the bytes of a Java array. -/
theorem encode_integerArray (kind : IntKind) {numbers : List kind.Number}
    (kept : Integers.Kept (.slice kind numbers)) :
    (Java.integerArray kind.width (numbers.map kind.toInt)).encode =
      kind.sliceBytes numbers := by
  obtain ⟨-, ⟨small, notGap⟩, elements⟩ := kept
  have code : kind.width.code = kind.code := by
    cases kind <;> rfl
  have dim : Java.Scalar.integerBytes (1 : Int32).toInt =
      (coded32 1).encode := rfl
  have size : Java.Scalar.lengthBytes ((numbers.map kind.toInt).map
      fun number => Java.Item.scalar (Java.integerOf number)).length =
        (coded32 (Int32.ofNat numbers.length)).encode := by
    rw [List.length_map, List.length_map, Java.Scalar.lengthBytes,
      Integer.encode_of_least (least_coded32 _),
      number_length small notGap, Int32.toInt_ofNat_of_lt small]
  rw [Java.integerArray, Java.Item.encode, Java.ElementType.encode, dim,
    size, kind.encodeAll_integers elements, code, sliceBytes,
    List.append_assoc, List.nil_append, List.append_assoc]
  rfl

end IntKind

/-! ## Round trips -/

namespace Integers

/-- The validator of a Java field for them. -/
def validator : Integers → Java.Validator
  | one kind _ => .integer kind.width 0
  | slice kind _ => .integer kind.width 1

/-- The Java value has these numbers, at any width. -/
def AreJava (value : Java.Value) : Integers → Prop
  | one kind number => value.integer? = some (kind.toInt number)
  | slice kind numbers => ∃ component elements,
      value = .array component elements ∧
        elements.map Java.Value.integer? =
          numbers.map fun number => some (kind.toInt number)

section Java

variable {S : Type}

/-- The Java decoder makes these numbers of the bytes, whatever is behind
them, where the length budget covers the bytes. -/
def ReadByJava (vf : Java.ValueFactory S) (bytes : List UInt8)
    (integers : Integers) : Prop :=
  ∀ (rest : List UInt8) (input : Java.Input S) (size : Nat),
    input.buf.unread = bytes ++ rest →
    bytes.length ≤ input.lengthBudget → bytes.length ≤ size →
    ∃ value after,
      Java.BinaryTaggedDataInput.readValue vf size (some integers.validator)
        false input = .ok value after ∧
      after.buf.unread = rest ∧ integers.AreJava value

variable (vf : Java.ValueFactory S)

theorem readByJava_one {kind : IntKind} {number : kind.Number}
    (kept : Integers.Kept (.one kind number)) :
    ReadByJava vf (kind.written number) (.one kind number) := by
  intro rest input size unread budget enough
  rw [IntKind.written, if_neg kept.2, ← kind.encode_integerOf kept.1]
    at unread budget enough
  obtain ⟨after, done, left⟩ :=
    (Java.decodes_integerOf vf (kind.inRange number) enough false).run
      (Nat.zero_le _) unread budget
  exact ⟨_, after, done, left, Width.integer?_value (kind.inRange number)⟩

theorem readByJava_slice {kind : IntKind} {numbers : List kind.Number}
    (kept : Integers.Kept (.slice kind numbers)) :
    ReadByJava vf (kind.sliceBytes numbers) (.slice kind numbers) := by
  intro rest input size unread budget enough
  rw [← kind.encode_integerArray kept] at unread budget enough
  have inside : ∀ number ∈ numbers.map kind.toInt,
      kind.width.InRange number := by
    intro number member
    obtain ⟨number, -, rfl⟩ := List.mem_map.mp member
    exact kind.inRange number
  have few := Java.Item.declared_lt_encode
    (Java.integerArray kind.width (numbers.map kind.toInt))
  obtain ⟨after, done, left⟩ :=
    (Java.decodes_integerArray vf inside enough false).run (by omega) unread
      budget
  refine ⟨_, after, done, left, _, _, rfl, ?_⟩
  rw [List.map_map, List.map_map]
  exact List.map_congr_left fun number _ =>
    Width.integer?_value (kind.inRange number)

end Java

/-- What is written is read again, by Go and by Java. -/
def RoundTrips {O P S : Type} (exporter : Exporter O) (vf : ValueFactory P)
    (java : Java.ValueFactory S) (integers : Integers) : Prop :=
  ∃ bytes,
    Library.Fueled.Settles (fun fuel =>
      BinaryTaggedDataOutput.writeValue exporter fuel integers.value) bytes ∧
    integers.ReadBack vf bytes ∧ integers.ReadByJava java bytes

section RoundTrips

variable {O P S : Type}

theorem settles_writeValue_iff (exporter : Exporter O) (integers : Integers)
    (bytes : List UInt8) :
    Library.Fueled.Settles (fun fuel =>
        BinaryTaggedDataOutput.writeValue exporter fuel integers.value)
        bytes ↔
      integers.bytes = some bytes := by
  constructor
  · rintro ⟨fuel, written⟩
    rw [← writeValue_eq exporter fuel integers]
    exact written _ (Nat.le_add_right _ _)
  · intro written
    refine ⟨2, fun more enough => ?_⟩
    obtain ⟨fuel, rfl⟩ := Nat.exists_eq_add_of_le' enough
    exact (writeValue_eq exporter fuel integers).trans written

theorem kept_of_roundTrips {exporter : Exporter O} {vf : ValueFactory P}
    {java : Java.ValueFactory S} {integers : Integers}
    (trips : integers.RoundTrips exporter vf java) : integers.Kept := by
  obtain ⟨bytes, written, back, -⟩ := trips
  rw [settles_writeValue_iff] at written
  cases integers with
  | one kind number =>
      cases written
      exact (readBack_one_iff vf kind number).mp back
  | slice kind numbers =>
      cases numbers with
      | nil => cases written
      | cons number numbers =>
          cases written
          exact kept_of_readBack vf (List.cons_ne_nil _ _) back

/-- Just the numbers in no gap are read as they were written, and just the
slices of those that look like no end and have a length in no gap. -/
theorem roundTrips_iff_kept (exporter : Exporter O) (vf : ValueFactory P)
    (java : Java.ValueFactory S) (integers : Integers) :
    integers.RoundTrips exporter vf java ↔ integers.Kept := by
  refine ⟨kept_of_roundTrips, fun kept => ?_⟩
  cases integers with
  | one kind number =>
      exact ⟨kind.written number,
        (settles_writeValue_iff exporter _ _).mpr rfl,
        (readBack_one_iff vf kind number).mpr kept, readByJava_one java kept⟩
  | slice kind numbers =>
      cases numbers with
      | nil => exact absurd rfl kept.1
      | cons number numbers =>
          exact ⟨kind.sliceBytes (number :: numbers),
            (settles_writeValue_iff exporter _ _).mpr rfl,
            readBack_slice vf kept, readByJava_slice java kept⟩

/-- An `int32` of 40000 is written as the `int16` of -25536. -/
theorem fortyThousand_changes :
    ¬∀ (exporter : Exporter Unit) (vf : ValueFactory Unit)
      (java : Java.ValueFactory Unit) (integers : Integers),
      integers.RoundTrips exporter vf java := by
  intro all
  have trips := all ⟨fun _ => none, fun _ => none⟩
    ⟨fun _ => none, fun _ _ => false⟩ Java.BinaryTaggedDataInput.objects
    (.one .int32 (40000 : Int32))
  have kept : ¬Gap (40000 : Int32).toInt := (kept_of_roundTrips trips).1
  exact kept (by decide)

end RoundTrips

end Integers

end Etch.Go
