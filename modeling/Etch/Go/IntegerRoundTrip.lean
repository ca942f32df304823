import Etch.Go.IntegerSlices

/-!
# Integers that Go reads as it has written them

What is read of a number is another one just when the number is in a gap, and
nothing is read of the `int8` that equals `NONE`.  An array of numbers is read
as it was when its length and all of its elements are, and none of these is
read as `NONE`.
-/

namespace Etch.Go

open Etch.Library.Reading
open BinaryTaggedDataInput

section

variable {O : Type}

/-! ## What is meant -/

/-- The value has these numbers, at any width. -/
def Integers.Are (value : Value O) : Integers → Prop
  | .one kind number => value.integer? = some (kind.toInt number)
  | .slice kind numbers => ∃ kind' elements, value = .slice kind' elements ∧
      elements.map Value.integer? =
        numbers.map fun number => some (kind.toInt number)

/-- The decoder makes these numbers of the bytes, whatever is behind them. -/
def Integers.ReadBack (vf : ValueFactory O) (bytes : List UInt8)
    (integers : Integers) : Prop :=
  ∃ value : Value O, integers.Are value ∧
    Settles Holds (fun fuel => (calls vf fuel).readValue false) bytes value

/-- No number is in a gap or looks like an end, a length neither. -/
def Integers.Kept : Integers → Prop
  | .one kind number =>
      ¬Gap (kind.toInt number) ∧ ¬kind.IsNone (kind.toInt number)
  | .slice kind numbers =>
      numbers ≠ [] ∧ (numbers.length < 2 ^ 31 ∧ ¬Gap numbers.length) ∧
        ∀ number ∈ numbers, Go.Kept (kind.toInt number)

/-! ## One reading -/

theorem exists_holds (bytes : List UInt8) : ∃ fb, Holds fb bytes := by
  have some : 0 < (bytes ++ [0]).length := by
    rw [List.length_append]
    exact Nat.succ_pos _
  refine ⟨⟨bytes ++ [0], 0, bytes.length, some⟩, ⟨Nat.zero_le _, ?_⟩, ?_⟩
  · rw [List.length_append]
    exact Nat.le_add_right _ _
  · exact (Etch.Library.Window.window_zero _ _).trans List.take_left

/-- What is read is read once and for all. -/
theorem settles_unique {m : Nat → Reader (Value O)} {bytes : List UInt8}
    {value value' : Value O} (settles : Settles Holds m bytes value)
    (settles' : Settles Holds m bytes value') : value = value' := by
  obtain ⟨fuel, reads⟩ := settles
  obtain ⟨fuel', reads'⟩ := settles'
  obtain ⟨fb, holds⟩ := exists_holds (bytes ++ [])
  obtain ⟨_, done, -⟩ := reads _ (Nat.le_max_left fuel fuel') fb [] holds
  obtain ⟨_, done', -⟩ := reads' _ (Nat.le_max_right fuel fuel') fb [] holds
  cases done.symm.trans done'
  rfl

variable (vf : ValueFactory O)

theorem readBack_one_iff (kind : IntKind) (number : kind.Number) :
    Integers.ReadBack vf (kind.written number) (.one kind number) ↔
      Integers.Kept (.one kind number) := by
  by_cases none : kind.IsNone (kind.toInt number)
  · have nil : Settles Holds (fun fuel => (calls vf fuel).readValue false)
        (kind.written number) (.nil : Value O) := by
      rw [IntKind.written, if_pos none]
      exact settles_value vf (.pure _)
    refine iff_of_false ?_ fun kept => kept.2 none
    rintro ⟨value, are, settles⟩
    cases settles_unique nil settles
    cases are
  · have read : Settles Holds (fun fuel => (calls vf fuel).readValue false)
        (kind.written number) ((kind.coded number).value : Value O) := by
      rw [IntKind.written, if_neg none]
      exact settles_integer vf false _
    have are : Integers.Are ((kind.coded number).value : Value O)
        (.one kind number) ↔ ¬Gap (kind.toInt number) := by
      rw [← kind.kept_eq_iff, ← Option.some_inj, ← integer?_value_coded]
      exact Iff.rfl
    constructor
    · rintro ⟨value, given, settles⟩
      cases settles_unique read settles
      exact ⟨are.mp given, none⟩
    · intro kept
      exact ⟨_, are.mpr kept.1, read⟩

/-! ## Slices -/

theorem number_length {size : Nat} (small : size < 2 ^ 31)
    (notGap : ¬Gap size) :
    (coded32 (Int32.ofNat size)).number = size := by
  rw [number_coded32, Int32.toInt_ofNat_of_lt small,
    kept32_eq_iff (by omega)]
  exact notGap

/-- A length is read as it was when an `int32` has it and it is in no gap. -/
theorem length_eq_iff (size : Nat) :
    (coded32 (Int32.ofNat size)).id.toInt = size ↔
      size < 2 ^ 31 ∧ ¬Gap size := by
  have inside := kept32_inside ⟨(Int32.ofNat size).le_toInt,
    (Int32.ofNat size).toInt_lt⟩
  have id : (coded32 (Int32.ofNat size)).id.toInt =
      kept32 (Int32.ofNat size).toInt := by
    rw [Integer.id, number_coded32]
    exact Int32.toInt_ofInt_of_le inside.1 inside.2
  rw [id]
  by_cases small : size < 2 ^ 31
  · rw [Int32.toInt_ofNat_of_lt small,
      kept32_eq_iff (by omega), and_iff_right small]
  · refine iff_of_false (fun same => ?_) fun both => small both.1
    have below := inside.2
    omega

theorem convert_kind (kind : IntKind) {value : Value O} {number : Int}
    (is : value.integer? = some number)
    (inside : -2 ^ (kind.bits - 1) ≤ number ∧
      number < 2 ^ (kind.bits - 1)) :
    convert vf kind.kind value = some (kind.value (kind.ofInt number)) := by
  cases kind with
  | int64 =>
      change value.integer?.map _ = _
      rw [is]
      rfl
  | int8 | int16 | int32 =>
      change value.integer?.bind _ = _
      rw [is]
      exact if_pos inside

/-- A number in no gap is converted back to itself. -/
theorem convert_coded (kind : IntKind) (number : kind.Number)
    (notGap : ¬Gap (kind.toInt number)) :
    convert vf kind.kind (kind.coded number).value =
      some (kind.value number) := by
  have is := integer?_value_coded (O := O) kind number
  have same := kind.toInt_ofInt_kept number
  rw [(kind.kept_eq_iff number).mpr notGap] at is same
  rw [convert_kind vf kind is (kind.inside number),
    kind.toInt_injective same]

/-- The elements of a slice as items. -/
def IntKind.items (kind : IntKind) (numbers : List kind.Number) : List Item :=
  numbers.map fun number => .integer (kind.coded number)

theorem readable_items {kind : IntKind} {numbers : List kind.Number}
    (kept : ∀ number ∈ numbers, Kept (kind.toInt number)) :
    ReadableElements vf (kind.items numbers) ∧
      Item.values? vf kind.kind (kind.items numbers) =
        some (numbers.map kind.value) ∧
      Item.encodeAll (kind.items numbers) = numbers.flatMap kind.written := by
  induction numbers with
  | nil => exact ⟨trivial, rfl, rfl⟩
  | cons number numbers ih =>
      obtain ⟨⟨notGap, ordinary⟩, kept⟩ := List.forall_mem_cons.mp kept
      obtain ⟨readable, values, bytes⟩ := ih kept
      have plain : ¬kind.IsNone (kind.toInt number) := fun none =>
        ordinary none.2
      refine ⟨⟨trivial, ?_, readable⟩, ?_, ?_⟩
      · intro marked
        have is := integer?_value_coded (O := O) kind number
        rw [(kind.kept_eq_iff number).mpr notGap,
          Option.some.inj marked] at is
        exact ordinary (Option.some.inj is).symm
      · rw [IntKind.items, List.map_cons, Item.values?, Item.value?]
        have rest : Item.values? vf kind.kind (numbers.map fun number =>
          .integer (kind.coded number)) = _ := values
        rw [rest]
        dsimp only
        rw [convert_coded vf kind number notGap]
        rfl
      · rw [IntKind.items, List.map_cons, Item.encodeAll, Item.encode,
          List.flatMap_cons, IntKind.written, if_neg plain, ← bytes]
        rfl

theorem readBack_slice {kind : IntKind} {numbers : List kind.Number}
    (kept : Integers.Kept (.slice kind numbers)) :
    Integers.ReadBack vf (kind.sliceBytes numbers) (.slice kind numbers) := by
  obtain ⟨-, length, kept⟩ := kept
  obtain ⟨readable, values, bytes⟩ := readable_items vf kept
  have kinds : kindOf vf kind.code none = some kind.kind := by
    cases kind <;> rfl
  have native : kind.code ≠ TypeCode.CUSTOM := by
    cases kind <;> decide
  have count : (kind.items numbers).length = numbers.length :=
    List.length_map _
  have encoded : kind.sliceBytes numbers =
      (Item.array kind.code none (coded32 1)
        (coded32 (Int32.ofNat numbers.length))
        (kind.items numbers)).encode := by
    rw [Item.encode, bytes]
    rfl
  refine ⟨.slice kind.kind (numbers.map kind.value),
    ⟨kind.kind, _, rfl, ?_⟩, ?_⟩
  · rw [List.map_map]
    exact List.map_congr_left fun number _ => kind.integer?_value number
  · rw [encoded]
    refine settles_array vf false kinds native rfl ?_ (count ▸ length.1)
      fun zero => ?_
    · rw [count]
      exact number_length length.1 length.2
    · exact settles_elements vf [] readable values List.length_replicate

theorem make_eq_some {zero : Value O} {length : Int32}
    {elements : List (Value O)} (made : make zero length = some elements) :
    elements = List.replicate length.toInt.toNat zero ∧ 0 ≤ length.toInt := by
  unfold make at made
  split_ifs at made with negative
  cases made
  refine ⟨rfl, Int.not_lt.mp fun below => negative ?_⟩
  exact Int32.lt_iff_toInt_lt.mpr below

theorem kept_of_readBack {kind : IntKind} {numbers : List kind.Number}
    (given : numbers ≠ [])
    (back : Integers.ReadBack vf (kind.sliceBytes numbers)
      (.slice kind numbers)) :
    Integers.Kept (.slice kind numbers) := by
  obtain ⟨_, ⟨kind', elements, rfl, same⟩, fuel, reads⟩ := back
  obtain ⟨fb, holds⟩ := exists_holds (kind.sliceBytes numbers ++ [])
  obtain ⟨last, done, -⟩ := reads (fuel + 2) (Nat.le_add_right _ _) fb [] holds
  obtain ⟨middle, holds, run⟩ := readValue_slice vf fuel false holds
  obtain ⟨places, made, done⟩ :=
    Option.bind_eq_some_iff.mp (run.symm.trans done)
  obtain ⟨⟨⟨slice⟩, last'⟩, looped, done⟩ :=
    Option.bind_eq_some_iff.mp done
  cases slice with
  | none => cases done
  | some slice =>
      cases done
      obtain ⟨_, result, count, -⟩ := readValues_frame vf rfl looped
      cases result
      obtain ⟨rfl, nonneg⟩ := make_eq_some made
      have size := congrArg List.length same
      rw [List.length_map, List.length_map, count,
        List.length_replicate] at size
      have length := (length_eq_iff numbers.length).mp (by omega)
      refine ⟨given, length, ?_⟩
      have places : List.replicate
          (coded32 (Int32.ofNat numbers.length)).id.toInt.toNat
          (kind.value (kind.ofInt 0) : Value O) =
            [] ++ numbers.map fun _ => kind.value (kind.ofInt 0) := by
        rw [size, List.map_const', List.nil_append]
      rw [places] at looped
      exact kept_of_readValues vf holds looped same

end

end Etch.Go
