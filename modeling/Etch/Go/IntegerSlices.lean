import Etch.Go.IntegerWriting
import Etch.Go.ReadableItems

/-!
# Integers and slices of them, written and read by Go

A slice has its length in front of its elements and ends at `NONE`.  Where an
element is read as that number, the loop ends there, and where the length is
read as another one, the slice that is made has that length.
-/

namespace Etch.Go

open Etch.Library.Reading
open BinaryTaggedDataInput
open BinaryTaggedDataOutput (writeValueBody writeValues)

/-! ## What is written -/

/-- An integer, or a slice of integers. -/
inductive Integers where
  | one (kind : IntKind) (number : kind.Number)
  | slice (kind : IntKind) (numbers : List kind.Number)

namespace IntKind

def sliceBytes (kind : IntKind) (numbers : List kind.Number) :
    List UInt8 :=
  TypeCode.ARRAY.toUInt8 :: (([kind.code.toUInt8] ++ ([] ++
    ((coded32 1).encode ++ (coded32 (Int32.ofNat numbers.length)).encode))) ++
      (numbers.flatMap kind.written ++ endCode))

end IntKind

namespace Integers

variable {O : Type}

def value : Integers → Value O
  | one kind number => kind.value number
  | slice kind numbers => .slice kind.kind (numbers.map kind.value)

/-- What is written for them; there is no type of an empty slice. -/
def bytes : Integers → Option (List UInt8)
  | one kind number => some (kind.written number)
  | slice _ [] => none
  | slice kind numbers => some (kind.sliceBytes numbers)

theorem writeValues_map {kind : IntKind}
    {writeValue : Value O → Option (List UInt8)}
    (writes : ∀ number : kind.Number,
      writeValue (kind.value number) = some (kind.written number))
    (numbers : List kind.Number) :
    writeValues writeValue (numbers.map kind.value) =
      some (numbers.flatMap kind.written) := by
  induction numbers with
  | nil => rfl
  | cons number numbers ih =>
      rw [List.map_cons, writeValues, writes, ih]
      rfl

theorem startArray_eq {writeValue : Value O → Option (List UInt8)}
    (writes : ∀ number : Int32,
      writeValue (.int32 number) = some (coded32 number).encode)
    (kind : IntKind) (size : Nat) :
    BinaryTaggedDataOutput.startArray writeValue kind.code none size =
      some ([kind.code.toUInt8] ++ ([] ++
        ((coded32 1).encode ++ (coded32 (Int32.ofNat size)).encode))) := by
  have type : BinaryTaggedDataOutput.writeArrayType writeValue kind.code
      none = some [] := by
    cases kind <;> rfl
  rw [BinaryTaggedDataOutput.startArray, type,
    BinaryTaggedDataOutput.writeIntValue, writes,
    BinaryTaggedDataOutput.writeIntValue, writes]
  rfl

/-- Two calls of `writeValue`, one inside the other, write all of it. -/
theorem writeValue_eq (vf : Exporter O) (fuel : Nat) (integers : Integers) :
    BinaryTaggedDataOutput.writeValue vf (fuel + 2) integers.value =
      integers.bytes := by
  have writes (kind : IntKind) (number : kind.Number) :
      BinaryTaggedDataOutput.writeValue vf (fuel + 1) (kind.value number) =
        some (kind.written number) :=
    writeValueBody_integer vf _ kind number
  cases integers with
  | one kind number => exact writeValueBody_integer vf _ kind number
  | slice kind numbers =>
      cases numbers with
      | nil => rfl
      | cons number numbers =>
          have values := writeValues_map (writes kind) (number :: numbers)
          have start := startArray_eq (writes .int32) kind
            (number :: numbers).length
          have stop : BinaryTaggedDataOutput.endArray
              (BinaryTaggedDataOutput.writeValue vf (fuel + 1)) =
                some endCode := writes .int8 TypeCode.NONE
          have code : BinaryTaggedDataOutput.getTypeCode
              (kind.value number : Value O) = kind.code := by
            cases kind <;> rfl
          have untyped : (if kind.code = TypeCode.CUSTOM then
              vf.GetCustomStructType (kind.value number) else none) =
                none := by
            cases kind <;> rfl
          have length : ((number :: numbers).map
              (kind.value : _ → Value O)).length =
                (number :: numbers).length := List.length_map _
          have array : BinaryTaggedDataOutput.writeArray vf
              (BinaryTaggedDataOutput.writeValue vf (fuel + 1))
              ((number :: numbers).map kind.value) =
                some (kind.sliceBytes (number :: numbers)).tail := by
            rw [List.map_cons] at values length ⊢
            rw [BinaryTaggedDataOutput.writeArray, values, stop, code,
              untyped, length, start]
            rfl
          change ((BinaryTaggedDataOutput.writeArray vf
            (BinaryTaggedDataOutput.writeValue vf (fuel + 1))
            ((number :: numbers).map kind.value)).bind _) = _
          rw [array]
          rfl

end Integers

/-! ## The loop for the elements -/

section Reading

variable {O : Type} (vf : ValueFactory O)

theorem lift_bind {α β : Type} (result : Option α) (next : α → Reader β)
    (fb : FlexBuffer) :
    ((result : Reader α) >>= next) fb = result.bind (next · fb) := by
  cases result <;> rfl

/-- A pass reads the end, or an element that it puts. -/
theorem readValues_cases {fuel i : Nat} {av result : ArrayValue O}
    {fb after : FlexBuffer}
    (done : (calls vf (fuel + 1)).readValues av i fb =
      some (result, after)) :
    ∃ value middle,
      (calls vf fuel).readValue true fb = some (value, middle) ∧
      (value = .int8 TypeCode.NONE ∧ result = av ∨
        value ≠ .int8 TypeCode.NONE ∧ ∃ next,
          av.set vf i value = some next ∧
            (calls vf fuel).readValues next (i + 1) middle =
              some (result, after)) := by
  obtain ⟨⟨value, middle⟩, read, done⟩ := Option.bind_eq_some_iff.mp done
  refine ⟨value, middle, read, ?_⟩
  have put (done : ((av.set vf i value : Reader (ArrayValue O)) >>=
      fun av => (calls vf fuel).readValues av (i + 1)) middle =
        some (result, after)) :
      ∃ next, av.set vf i value = some next ∧
        (calls vf fuel).readValues next (i + 1) middle =
          some (result, after) := by
    rw [lift_bind] at done
    exact Option.bind_eq_some_iff.mp done
  cases value with
  | int8 code =>
      by_cases stop : code = TypeCode.NONE
      · rw [stop] at done ⊢
        cases done
        exact .inl ⟨rfl, rfl⟩
      · refine .inr ⟨fun same => stop (Value.int8.inj same), put ?_⟩
        simp only [if_neg stop] at done
        exact done
  | _ => exact .inr ⟨by rintro ⟨⟩, put done⟩

theorem set_eq_some {av next : ArrayValue O} {i : Nat} {value : Value O}
    (put : av.set vf i value = some next) :
    ∃ kind elements converted, av.ArrayVal = some (kind, elements) ∧
      i < elements.length ∧ assign vf kind value = some converted ∧
      next = ⟨some (kind, elements.set i converted)⟩ := by
  obtain ⟨⟨kind, elements⟩, slice, put⟩ := Option.bind_eq_some_iff.mp put
  dsimp only at put
  split_ifs at put with inside
  obtain ⟨converted, converts, put⟩ := Option.bind_eq_some_iff.mp put
  cases put
  exact ⟨kind, elements, converted, slice, inside, converts, rfl⟩

/-- The loop keeps the elements that it has put, and the length. -/
theorem readValues_frame {fuel i : Nat} {av result : ArrayValue O}
    {fb after : FlexBuffer} {kind : Kind} {elements : List (Value O)}
    (slice : av.ArrayVal = some (kind, elements))
    (done : (calls vf fuel).readValues av i fb = some (result, after)) :
    ∃ elements', result.ArrayVal = some (kind, elements') ∧
      elements'.length = elements.length ∧
      ∀ j < i, elements'[j]? = elements[j]? := by
  induction fuel generalizing i av elements fb with
  | zero => cases done
  | succ fuel ih =>
      obtain ⟨value, middle, -, ⟨-, rfl⟩ | ⟨-, next, put, done⟩⟩ :=
        readValues_cases vf done
      · exact ⟨elements, slice, rfl, fun _ _ => rfl⟩
      · obtain ⟨_, _, converted, slice', -, -, rfl⟩ := set_eq_some vf put
        cases slice.symm.trans slice'
        obtain ⟨elements', result, length, kept⟩ := ih rfl done
        refine ⟨elements', result, length.trans List.length_set, ?_⟩
        intro j before
        rw [kept j (Nat.lt_succ_of_lt before),
          List.getElem?_set_ne (Nat.ne_of_gt before)]

/-- A number that is the end of an array is coded as a `BYTE`. -/
theorem value_coded_of_eq (kind : IntKind) (number : kind.Number)
    (is : kind.toInt number = -127) :
    ((kind.coded number).value : Value O) = .int8 TypeCode.NONE := by
  cases kind with
  | int8 =>
      obtain rfl : number = (-127 : Int8) := Int8.toInt_inj.mp is
      rfl
  | int16 =>
      obtain rfl : number = (-127 : Int16) := Int16.toInt_inj.mp is
      rfl
  | int32 =>
      obtain rfl : number = (-127 : Int32) := Int32.toInt_inj.mp is
      rfl
  | int64 =>
      obtain rfl : number = (-127 : Int64) := Int64.toInt_inj.mp is
      rfl

/-- An integer is converted to the type of the elements. -/
theorem assign_kind (kind : IntKind) {value : Value O} {number : Int}
    (is : value.integer? = some number) :
    assign vf kind.kind value = some (kind.value (kind.ofInt number)) := by
  cases value <;> cases is <;> cases kind <;> rfl

/-- What is written for an element is read as it is coded. -/
theorem reads_written (kind : IntKind) (number : kind.Number)
    (fuel : Nat) :
    Reads Holds ((calls vf (fuel + 1)).readValue true)
      (kind.written number) (kind.coded number).value := by
  unfold IntKind.written
  split_ifs with none
  · obtain ⟨rfl, is⟩ := none
    rw [value_coded_of_eq .int8 number is]
    exact reads_value vf (.pure _)
  · exact reads_integer vf fuel true (kind.coded number)

/-- The numbers that an array takes as elements and gives back. -/
def Kept (number : Int) : Prop :=
  ¬Gap number ∧ number ≠ -127

theorem integer?_value_coded (kind : IntKind) (number : kind.Number) :
    ((kind.coded number).value : Value O).integer? =
      some (kind.kept (kind.toInt number)) := by
  rw [Integer.integer?_value, IntKind.number_coded]

theorem value_coded_ne_of_zero {kind : IntKind} {number : kind.Number}
    (zero : kind.toInt number = 0) :
    ((kind.coded number).value : Value O) ≠ .int8 TypeCode.NONE := by
  intro ends
  have kept := (kind.kept_eq_iff number).mpr
    (zero ▸ not_gap (by decide))
  have is := integer?_value_coded (O := O) kind number
  rw [ends, kept, zero] at is
  exact absurd (Option.some.inj is) (by decide)

theorem getElem?_middle {α : Type} (before : List α) (value : α)
    (after : List α) :
    (before ++ value :: after)[before.length]? = some value := by
  rw [List.getElem?_append_right (Nat.le_refl _), Nat.sub_self]
  rfl

/-- An element that is put is converted and stays where it is. -/
theorem converted_of_put {kind : IntKind} {number : kind.Number}
    {before after elements : List (Value O)} {place : Value O} {kind' : Kind}
    {fuel : Nat} {next : ArrayValue O} {fb last : FlexBuffer}
    (put : ArrayValue.set vf ⟨some (kind.kind, before ++ place :: after)⟩
      before.length (kind.coded number).value = some next)
    (done : (calls vf fuel).readValues next (before.length + 1) fb =
      some (⟨some (kind', elements)⟩, last)) :
    ∃ converted : Value O,
      converted.integer? = some (kind.kept (kind.toInt number)) ∧
      next = ⟨some (kind.kind, before ++ converted :: after)⟩ ∧
      elements[before.length]? = some converted := by
  obtain ⟨_, _, converted, slice, -, converts, rfl⟩ := set_eq_some vf put
  cases slice
  rw [assign_kind vf kind (integer?_value_coded kind number)] at converts
  cases converts
  rw [List.set_append_right _ _ (Nat.le_refl _), Nat.sub_self,
    List.set_cons_zero] at done ⊢
  obtain ⟨_, result, -, frame⟩ := readValues_frame vf rfl done
  cases result
  refine ⟨_, ?_, rfl, ?_⟩
  · rw [IntKind.integer?_value, IntKind.toInt_ofInt_kept]
  · rw [frame _ (Nat.lt_succ_self _), getElem?_middle]

/-- Elements that are read back are not the end and are in no gap. -/
theorem kept_of_readValues {kind : IntKind} {numbers : List kind.Number}
    {before elements : List (Value O)} {kind' : Kind} {fuel : Nat}
    {fb last : FlexBuffer} {rest : List UInt8}
    (holds : Holds fb (numbers.flatMap kind.written ++ (endCode ++ rest)))
    (done : (calls vf fuel).readValues
      ⟨some (kind.kind,
        before ++ numbers.map fun _ => kind.value (kind.ofInt 0))⟩
      before.length fb = some (⟨some (kind', elements)⟩, last))
    (same : elements.map Value.integer? = before.map Value.integer? ++
      numbers.map fun number => some (kind.toInt number)) :
    ∀ number ∈ numbers, Kept (kind.toInt number) := by
  induction numbers generalizing before fuel fb with
  | nil => exact fun _ member => absurd member List.not_mem_nil
  | cons number numbers ih =>
      cases fuel with
      | zero => cases done
      | succ fuel =>
          obtain ⟨value, middle, read, passed⟩ := readValues_cases vf done
          cases fuel with
          | zero => cases read
          | succ fuel =>
              rw [List.flatMap_cons, List.append_assoc] at holds
              obtain ⟨middle', read', holds⟩ :=
                reads_written vf kind number fuel _ _ holds
              cases read.symm.trans read'
              have here : elements[before.length]?.map Value.integer? =
                  some (some (kind.toInt number)) := by
                have length : (before.map Value.integer?).length =
                    before.length := List.length_map _
                rw [← List.getElem?_map, same, ← length]
                exact getElem?_middle _ _ _
              obtain ⟨ends, result⟩ | ⟨ordinary, next, put, done⟩ := passed
              · -- the place has its zero, which is not such an end
                cases result
                rw [List.map_cons, getElem?_middle, Option.map_some,
                  IntKind.integer?_value, IntKind.toInt_ofInt,
                  Int.zero_bmod, Option.some_inj, Option.some_inj] at here
                exact absurd ends (value_coded_ne_of_zero here.symm)
              · obtain ⟨converted, is, rfl, there⟩ :=
                  converted_of_put vf put done
                rw [there, Option.map_some, is, Option.some_inj,
                  Option.some_inj] at here
                have kept : Kept (kind.toInt number) := by
                  refine ⟨(kind.kept_eq_iff number).mp here, fun marked => ?_⟩
                  exact ordinary (value_coded_of_eq kind number marked)
                have length : before.length + 1 =
                    (before ++ [converted]).length := by
                  rw [List.length_append, List.length_singleton]
                rw [List.append_cons, length] at done
                refine List.forall_mem_cons.mpr ⟨kept, ih holds done ?_⟩
                rw [same, List.map_append, List.append_assoc, List.map_cons,
                  List.map_cons, is, here]
                rfl

/-! ## A slice -/

theorem reads_readIntegerValue (fuel : Nat) (integer : Integer) :
    Reads Holds (readIntegerValue (calls vf (fuel + 1)))
      integer.encode integer.id := by
  have id : (integer.value : Value O).toInteger = integer.id := by
    rw [Value.toInteger, Integer.integer?_value]
    rfl
  rw [← id]
  exact (reads_integer vf fuel false integer).map Value.toInteger

/-- The length that is read is that of the slice that is made. -/
theorem startArray_run (fuel : Nat) {code : Int8} {dim length : Integer}
    {fb : FlexBuffer} {rest : List UInt8} (native : code ≠ TypeCode.CUSTOM)
    (single : dim.id = 1)
    (holds : Holds fb (([code.toUInt8] ++ ([] ++
      (dim.encode ++ length.encode))) ++ rest)) :
    ∃ after, Holds after rest ∧
      startArray vf (calls vf (fuel + 1)) fb =
        (newArrayForType code none length.id).map fun av =>
          (some av, after) := by
  rw [List.append_assoc, List.nil_append, List.append_assoc] at holds
  refine (reads_readByte code).bind_run holds fun middle holds => ?_
  have untyped : readArrayType vf (calls vf (fuel + 1)) code = pure none :=
    if_neg native
  rw [untyped, pure_bind]
  refine (reads_readIntegerValue vf fuel dim).bind_run holds
    fun middle holds => ?_
  rw [if_neg (not_not.mpr single)]
  refine (reads_readIntegerValue vf fuel length).bind_run holds
    fun after holds => ⟨after, holds, ?_⟩
  cases newArrayForType code none length.id <;> rfl

/-- What is left to do after the length of a slice. -/
theorem readValue_slice (fuel : Nat) (noneOk : Bool) {kind : IntKind}
    {numbers : List kind.Number} {fb : FlexBuffer} {rest : List UInt8}
    (holds : Holds fb (kind.sliceBytes numbers ++ rest)) :
    ∃ after,
      Holds after (numbers.flatMap kind.written ++ (endCode ++ rest)) ∧
      (calls vf (fuel + 2)).readValue noneOk fb =
        (make (kind.value (kind.ofInt 0) : Value O)
          (coded32 (Int32.ofNat numbers.length)).id).bind fun elements =>
          ((calls vf (fuel + 1)).readValues
            ⟨some (kind.kind, elements)⟩ 0 after).bind fun (av, last) =>
              (fromArrayValue av).map fun value => (value, last) := by
  have whole : kind.sliceBytes numbers ++ rest =
      [TypeCode.ARRAY.toUInt8] ++ (([kind.code.toUInt8] ++ ([] ++
        ((coded32 1).encode ++
          (coded32 (Int32.ofNat numbers.length)).encode))) ++
        (numbers.flatMap kind.written ++ (endCode ++ rest))) := by
    simp [IntKind.sliceBytes]
  rw [whole] at holds
  refine (reads_readByte TypeCode.ARRAY).bind_run holds
    fun middle holds => ?_
  have native : kind.code ≠ TypeCode.CUSTOM := by
    cases kind <;> decide
  obtain ⟨after, holds, starts⟩ := startArray_run vf fuel native rfl holds
  refine ⟨after, holds, ?_⟩
  have made (length : Int32) : newArrayForType kind.code none length =
      (make (kind.value (kind.ofInt 0) : Value O) length).map fun elements =>
        ⟨some (kind.kind, elements)⟩ := by
    cases kind <;> rfl
  change Option.bind (Option.bind (startArray vf _ middle) _) _ = _
  rw [starts, made]
  cases make (kind.value (kind.ofInt 0) : Value O)
    (coded32 (Int32.ofNat numbers.length)).id with
  | none => rfl
  | some elements =>
      change Option.bind (Option.bind ((calls vf (fuel + 1)).readValues
        ⟨some (kind.kind, elements)⟩ 0 after) _) _ = _
      rw [Option.bind_some]
      cases (calls vf (fuel + 1)).readValues
        ⟨some (kind.kind, elements)⟩ 0 after with
      | none => rfl
      | some result =>
          obtain ⟨av, last⟩ := result
          change ((fromArrayValue av : Reader (Value O)) last) =
            (fromArrayValue av).map fun value => (value, last)
          cases fromArrayValue av <;> rfl

end Reading

end Etch.Go
