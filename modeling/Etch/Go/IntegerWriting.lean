import Etch.Go.BinaryTaggedDataOutput
import Etch.Go.EncodedItems

/-!
# How the Go `BinaryTaggedDataOutput` writes integers

An `int64` below 2^32 and an `int32` below 2^16 are converted to the next
smaller type before a code is chosen, so that the ones that this type does not
have are written as other numbers.
-/

namespace Etch.Go

open Etch.Library.BigEndian
open BinaryTaggedDataOutput

/-! ## Integer types -/

/-- A type of integers. -/
inductive IntKind where
  | int8
  | int16
  | int32
  | int64
deriving DecidableEq

namespace IntKind

/-- The integers of a type. -/
def Number : IntKind → Type
  | int8 => Int8
  | int16 => Int16
  | int32 => Int32
  | int64 => Int64

variable {O : Type}

def value : (kind : IntKind) → kind.Number → Value O
  | int8, number => Value.int8 number
  | int16, number => Value.int16 number
  | int32, number => Value.int32 number
  | int64, number => Value.int64 number

def toInt : (kind : IntKind) → kind.Number → Int
  | int8, number => Int8.toInt number
  | int16, number => Int16.toInt number
  | int32, number => Int32.toInt number
  | int64, number => Int64.toInt number

/-- The conversion of a number to the type. -/
def ofInt : (kind : IntKind) → Int → kind.Number
  | int8, number => Int8.ofInt number
  | int16, number => Int16.ofInt number
  | int32, number => Int32.ofInt number
  | int64, number => Int64.ofInt number

/-- The type of the elements of a slice. -/
def kind : IntKind → Kind
  | int8 => .int8
  | int16 => .int16
  | int32 => .int32
  | int64 => .int64

/-- The type code of a slice. -/
def code : IntKind → Int8
  | int8 => TypeCode.BYTE
  | int16 => TypeCode.SHORT
  | int32 => TypeCode.INT
  | int64 => TypeCode.LONG

def bits : IntKind → Nat
  | int8 => 8
  | int16 => 16
  | int32 => 32
  | int64 => 64

theorem integer?_value (kind : IntKind) (number : kind.Number) :
    (kind.value number : Value O).integer? = some (kind.toInt number) := by
  cases kind <;> rfl

theorem value_ne_nil (kind : IntKind) (number : kind.Number) :
    (kind.value number : Value O) ≠ .nil := by
  cases kind <;> rintro ⟨⟩

theorem toInt_injective (kind : IntKind) :
    Function.Injective kind.toInt := by
  cases kind with
  | int8 => exact fun _ _ => Int8.toInt_inj.mp
  | int16 => exact fun _ _ => Int16.toInt_inj.mp
  | int32 => exact fun _ _ => Int32.toInt_inj.mp
  | int64 => exact fun _ _ => Int64.toInt_inj.mp

theorem toInt_ofInt (kind : IntKind) (number : Int) :
    kind.toInt (kind.ofInt number) = Int.bmod number (2 ^ kind.bits) := by
  cases kind with
  | int8 => exact Int8.toInt_ofInt
  | int16 => exact Int16.toInt_ofInt
  | int32 => exact Int32.toInt_ofInt
  | int64 => exact Int64.toInt_ofInt

theorem inside (kind : IntKind) (number : kind.Number) :
    -2 ^ (kind.bits - 1) ≤ kind.toInt number ∧
      kind.toInt number < 2 ^ (kind.bits - 1) := by
  cases kind with
  | int8 => exact ⟨Int8.le_toInt number, Int8.toInt_lt number⟩
  | int16 => exact ⟨Int16.le_toInt number, Int16.toInt_lt number⟩
  | int32 => exact ⟨Int32.le_toInt number, Int32.toInt_lt number⟩
  | int64 => exact ⟨Int64.le_toInt number, Int64.toInt_lt number⟩

end IntKind

/-! ## Integers as they are written -/

def coded8 (val : Int8) : Integer :=
  if small : TypeCode.MIN_TINY_INT ≤ val then .tiny val small else .byte val

def coded16 (val : Int16) : Integer :=
  if val ≤ 127 ∧ val ≥ -128 then coded8 val.toInt8 else .short val

def coded32 (val : Int32) : Integer :=
  if val ≤ 65535 ∧ val ≥ -65536 then coded16 val.toInt16 else .int val

def coded64 (val : Int64) : Integer :=
  if val ≤ 4294967295 ∧ val ≥ -4294967296 then coded32 val.toInt32
  else .long val

namespace IntKind

/-- An integer as it is written, but for an `int8` that equals `NONE`. -/
def coded : (kind : IntKind) → kind.Number → Integer
  | int8, number => coded8 number
  | int16, number => coded16 number
  | int32, number => coded32 number
  | int64, number => coded64 number

/-- An `int8` that is written as the end of an array is. -/
def IsNone (kind : IntKind) (number : Int) : Prop :=
  kind = int8 ∧ number = -127

instance (kind : IntKind) (number : Int) : Decidable (kind.IsNone number) :=
  inferInstanceAs (Decidable (_ ∧ _))

def written (kind : IntKind) (number : kind.Number) : List UInt8 :=
  if kind.IsNone (kind.toInt number) then endCode
  else (kind.coded number).encode

end IntKind

namespace Integer

/-- The code in front of an integer. -/
def code : Integer → Int8
  | tiny value _ => value
  | byte _ => TypeCode.BYTE
  | short _ => TypeCode.SHORT
  | int _ => TypeCode.INT
  | long _ => TypeCode.LONG

/-- The integer is the value, converted to its width. -/
def Of {O : Type} (integer : Integer) (value : Value O) (number : Int) :
    Prop :=
  match integer with
  | tiny _ _ => True
  | byte val => val = Int8.ofInt number
  | short val => val = Int16.ofInt number
  | int val => val = Int32.ofInt number
  | long val => value = .int64 val

end Integer

section Codes

variable {O : Type} {value : Value O} {number : Int}

theorem checkByte_eq (val : Int8) : checkByte val = (coded8 val).code := by
  have most : val ≤ TypeCode.MAX_TINY_INT := by
    rw [Int8.le_iff_toInt_le]
    exact Int.le_of_lt_add_one val.toInt_lt
  unfold checkByte coded8
  by_cases small : TypeCode.MIN_TINY_INT ≤ val
  · rw [if_pos ⟨most, small⟩, dif_pos small]
    rfl
  · rw [if_neg (not_and_of_not_right _ small), dif_neg small]
    rfl

theorem checkShort_eq (val : Int16) :
    checkShort val = (coded16 val).code := by
  unfold checkShort coded16
  split_ifs
  · exact checkByte_eq _
  · rfl

theorem checkInteger_eq (val : Int32) :
    checkInteger val = (coded32 val).code := by
  unfold checkInteger coded32
  split_ifs
  · exact checkShort_eq _
  · rfl

theorem checkLong_eq (val : Int64) : checkLong val = (coded64 val).code := by
  unfold checkLong coded64
  split_ifs
  · exact checkInteger_eq _
  · rfl

theorem coded8_of : (coded8 (Int8.ofInt number)).Of value number := by
  unfold coded8
  split_ifs
  · trivial
  · rfl

theorem coded16_of : (coded16 (Int16.ofInt number)).Of value number := by
  unfold coded16
  split_ifs
  · rw [Int16.toInt8_ofInt]
    exact coded8_of
  · rfl

theorem coded32_of : (coded32 (Int32.ofInt number)).Of value number := by
  unfold coded32
  split_ifs
  · rw [Int32.toInt16_ofInt]
    exact coded16_of
  · rfl

theorem coded64_of (val : Int64) :
    (coded64 val).Of (.int64 val : Value O) val.toInt := by
  unfold coded64
  split_ifs
  · have same : val.toInt32 = Int32.ofInt val.toInt := by
      conv_lhs => rw [← Int64.ofInt_toInt val]
      exact Int64.toInt32_ofInt
    rw [same]
    exact coded32_of
  · rfl

theorem coded8_toInt (val : Int8) : (coded8 val).Of value val.toInt := by
  have of : (coded8 (Int8.ofInt val.toInt)).Of value val.toInt :=
    coded8_of
  rwa [Int8.ofInt_toInt] at of

theorem coded16_toInt (val : Int16) : (coded16 val).Of value val.toInt := by
  have of : (coded16 (Int16.ofInt val.toInt)).Of value val.toInt :=
    coded16_of
  rwa [Int16.ofInt_toInt] at of

theorem coded32_toInt (val : Int32) : (coded32 val).Of value val.toInt := by
  have of : (coded32 (Int32.ofInt val.toInt)).Of value val.toInt :=
    coded32_of
  rwa [Int32.ofInt_toInt] at of

/-- An `int8` may equal `NONE`. -/
theorem checkValue_int8 (val : Int8) :
    checkValue (.int8 val : Value O) =
      if IntKind.int8.IsNone val.toInt then TypeCode.NONE
      else (coded8 val).code := by
  have none : IntKind.int8.IsNone val.toInt ↔ val = TypeCode.NONE := by
    rw [← Int8.toInt_inj]
    exact and_iff_right rfl
  rw [← checkByte_eq, if_congr none rfl rfl]
  rfl

theorem writeValueBody_eq (vf : Exporter O)
    (writeValue : Value O → Option (List UInt8)) (given : value ≠ .nil) :
    writeValueBody vf writeValue value =
      (writePayload vf writeValue (checkValue value) value).map
        fun payload => (checkValue value).toUInt8 :: payload := by
  rw [Option.map_eq_bind]
  cases value with
  | nil => exact absurd rfl given
  | _ => rfl

/-- What is written behind the code of an integer. -/
theorem writePayload_integer (vf : Exporter O)
    (writeValue : Value O → Option (List UInt8)) {integer : Integer}
    (is : value.integer? = some number) (of : integer.Of value number) :
    (writePayload vf writeValue integer.code value).map
      (fun payload => integer.code.toUInt8 :: payload) =
        some integer.encode := by
  have byte : toByte value = Int8.ofInt number := by
    rw [toByte, is]
    rfl
  have short : toShort value = Int16.ofInt number := by
    rw [toShort, is]
    rfl
  have int : value.toInteger = Int32.ofInt number := by
    rw [Value.toInteger, is]
    rfl
  cases integer with
  | tiny code small =>
      have other (other : Int8) (below : other < TypeCode.MIN_TINY_INT) :
          code ≠ other := by
        rintro rfl
        exact Int8.lt_irrefl (Int8.lt_of_lt_of_le below small)
      have payload : writePayload vf writeValue code value = some [] := by
        rw [writePayload,
          if_neg (other TypeCode.BYTE (by decide)),
          if_neg (other TypeCode.SHORT (by decide)),
          if_neg (other TypeCode.INT (by decide)),
          if_neg (not_or.mpr ⟨other TypeCode.LONG (by decide),
            not_or.mpr ⟨other TypeCode.FLOAT (by decide),
              other TypeCode.DOUBLE (by decide)⟩⟩),
          if_neg (not_or.mpr ⟨other TypeCode.BYTES (by decide),
            other TypeCode.STRING (by decide)⟩),
          if_neg (other TypeCode.ARRAY (by decide)),
          if_neg (other TypeCode.CUSTOM (by decide))]
        all_goals
          intros
          subst value
          cases is
      exact congrArg _ payload
  | byte val =>
      have payload : writePayload vf writeValue TypeCode.BYTE value =
          some [val.toUInt8] := by
        rw [of, ← byte]
        rfl
      exact congrArg _ payload
  | short val =>
      have payload : writePayload vf writeValue TypeCode.SHORT value =
          some (putShort val) := by
        rw [of, ← short]
        rfl
      exact congrArg _ payload
  | int val =>
      have payload : writePayload vf writeValue TypeCode.INT value =
          some (putInt val) := by
        rw [of, ← int]
        rfl
      exact congrArg _ payload
  | long val =>
      obtain rfl : value = .int64 val := of
      rfl

/-- Every integer is written as it is coded, or as the end of an array. -/
theorem writeValueBody_integer (vf : Exporter O)
    (writeValue : Value O → Option (List UInt8)) (kind : IntKind)
    (number : kind.Number) :
    writeValueBody vf writeValue (kind.value number) =
      some (kind.written number) := by
  have of : (kind.coded number).Of (kind.value number : Value O)
      (kind.toInt number) := by
    cases kind with
    | int8 => exact coded8_toInt number
    | int16 => exact coded16_toInt number
    | int32 => exact coded32_toInt number
    | int64 => exact coded64_of number
  have codes : checkValue (kind.value number : Value O) =
      if kind.IsNone (kind.toInt number) then TypeCode.NONE
      else (kind.coded number).code := by
    cases kind with
    | int8 => exact checkValue_int8 number
    | int16 => exact checkShort_eq number
    | int32 => exact checkInteger_eq number
    | int64 => exact checkLong_eq number
  have body := writeValueBody_eq vf writeValue (kind.value_ne_nil number)
  rw [body, codes, IntKind.written]
  split_ifs with none
  · cases kind <;> rfl
  · exact writePayload_integer vf writeValue
      (kind.integer?_value number) of

end Codes

/-! ## The numbers that are written -/

/-- Between the signed and the unsigned limits of a type. -/
def Gap (number : Int) : Prop :=
  2 ^ 15 ≤ number ∧ number < 2 ^ 16 ∨
    -2 ^ 16 ≤ number ∧ number < -2 ^ 15 ∨
    2 ^ 31 ≤ number ∧ number < 2 ^ 32 ∨
    -2 ^ 32 ≤ number ∧ number < -2 ^ 31

instance (number : Int) : Decidable (Gap number) :=
  inferInstanceAs (Decidable (_ ∨ _))

theorem number_coded8 (val : Int8) : (coded8 val).number = val.toInt := by
  unfold coded8
  split_ifs <;> rfl

theorem number_coded16 (val : Int16) :
    (coded16 val).number = val.toInt := by
  unfold coded16
  split_ifs with small
  · have above := Int16.le_iff_toInt_le.mp small.1
    have below := Int16.le_iff_toInt_le.mp small.2
    rw [number_coded8, Int16.toInt_toInt8]
    change val.toInt ≤ 127 at above
    change -128 ≤ val.toInt at below
    exact Int.bmod_eq_of_le (by omega) (by omega)
  · rfl

/-- The number that is written for an `int32`. -/
def kept32 (number : Int) : Int :=
  if -2 ^ 16 ≤ number ∧ number < 2 ^ 16 then Int.bmod number (2 ^ 16)
  else number

/-- The number that is written for an `int64`. -/
def kept64 (number : Int) : Int :=
  if -2 ^ 32 ≤ number ∧ number < 2 ^ 32 then
    kept32 (Int.bmod number (2 ^ 32))
  else number

theorem number_coded32 (val : Int32) :
    (coded32 val).number = kept32 val.toInt := by
  have same : (val ≤ 65535 ∧ val ≥ -65536) ↔
      -2 ^ 16 ≤ val.toInt ∧ val.toInt < 2 ^ 16 := by
    rw [ge_iff_le, Int32.le_iff_toInt_le, Int32.le_iff_toInt_le]
    change val.toInt ≤ 65535 ∧ -65536 ≤ val.toInt ↔ _
    omega
  rw [coded32, apply_ite Integer.number, if_congr same rfl rfl,
    number_coded16, Int32.toInt_toInt16]
  rfl

theorem number_coded64 (val : Int64) :
    (coded64 val).number = kept64 val.toInt := by
  have same : (val ≤ 4294967295 ∧ val ≥ -4294967296) ↔
      -2 ^ 32 ≤ val.toInt ∧ val.toInt < 2 ^ 32 := by
    rw [ge_iff_le, Int64.le_iff_toInt_le, Int64.le_iff_toInt_le]
    change val.toInt ≤ 4294967295 ∧ -4294967296 ≤ val.toInt ↔ _
    omega
  rw [coded64, apply_ite Integer.number, if_congr same rfl rfl,
    number_coded32, Int64.toInt_toInt32]
  rfl

/-- A number between the limits is converted to another one. -/
theorem kept32_eq_iff {number : Int}
    (inside : -2 ^ 31 ≤ number ∧ number < 2 ^ 31) :
    kept32 number = number ↔ ¬Gap number := by
  unfold kept32 Gap
  rw [Int.bmod_def]
  split_ifs <;> omega

theorem kept64_eq_iff (number : Int) :
    kept64 number = number ↔ ¬Gap number := by
  unfold kept64 kept32 Gap
  rw [Int.bmod_def, Int.bmod_def]
  split_ifs <;> omega

theorem kept32_inside {number : Int}
    (inside : -2 ^ 31 ≤ number ∧ number < 2 ^ 31) :
    -2 ^ 31 ≤ kept32 number ∧ kept32 number < 2 ^ 31 := by
  unfold kept32
  rw [Int.bmod_def]
  split_ifs <;> omega

theorem not_gap {number : Int}
    (small : -2 ^ 15 ≤ number ∧ number < 2 ^ 15) : ¬Gap number := by
  unfold Gap
  omega

namespace IntKind

/-- The number that is written. -/
def kept : IntKind → Int → Int
  | int32, number => kept32 number
  | int64, number => kept64 number
  | _, number => number

theorem number_coded (kind : IntKind) (number : kind.Number) :
    (kind.coded number).number = kind.kept (kind.toInt number) := by
  cases kind with
  | int8 => exact number_coded8 number
  | int16 => exact number_coded16 number
  | int32 => exact number_coded32 number
  | int64 => exact number_coded64 number

/-- Just the numbers that are not in a gap are written as they are. -/
theorem kept_eq_iff (kind : IntKind) (number : kind.Number) :
    kind.kept (kind.toInt number) = kind.toInt number ↔
      ¬Gap (kind.toInt number) := by
  obtain ⟨lower, upper⟩ := kind.inside number
  generalize kind.toInt number = integer at lower upper
  cases kind with
  | int8 =>
      simp only [bits] at lower upper
      exact iff_of_true rfl (not_gap (by omega))
  | int16 => exact iff_of_true rfl (not_gap ⟨lower, upper⟩)
  | int32 => exact kept32_eq_iff ⟨lower, upper⟩
  | int64 => exact kept64_eq_iff integer

/-- The number that is written is one of the type. -/
theorem toInt_ofInt_kept (kind : IntKind) (number : kind.Number) :
    kind.toInt (kind.ofInt (kind.kept (kind.toInt number))) =
      kind.kept (kind.toInt number) := by
  obtain ⟨lower, upper⟩ := kind.inside number
  rw [toInt_ofInt]
  generalize kind.toInt number = integer at lower upper
  have inside : -(2 ^ kind.bits : Nat) ≤ kind.kept integer * 2 ∧
      kind.kept integer * 2 < (2 ^ kind.bits : Nat) := by
    cases kind with
    | int8 =>
        simp only [bits, kept] at lower upper ⊢
        omega
    | int16 =>
        simp only [bits, kept] at lower upper ⊢
        omega
    | int32 =>
        obtain ⟨lower, upper⟩ := kept32_inside ⟨lower, upper⟩
        simp only [bits, kept] at lower upper ⊢
        omega
    | int64 =>
        simp only [bits, kept, kept64, kept32] at lower upper ⊢
        rw [Int.bmod_def, Int.bmod_def]
        split_ifs <;> omega
  exact Int.bmod_eq_of_le_mul_two inside.1 inside.2

end IntKind

end Etch.Go
