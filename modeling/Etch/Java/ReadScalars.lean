import Etch.Java.WrittenItems

/-!
# How the Java `BinaryTaggedDataInput` reads a scalar

The value of a scalar is what is read of its encoding, apart from what the
validator makes of it.
-/

namespace Etch.Java

open Etch.Library.Stateful Etch.Library.BigEndian BinaryTaggedData
open FloatingPoint

/-- The integer that is read, of the least width that it has. -/
def narrowed (number : Int) : Value :=
  if -128 ≤ number ∧ number ≤ 127 then .byte (Int8.ofInt number)
  else if -32768 ≤ number ∧ number ≤ 32767 then
    .short (Int16.ofInt number)
  else if -2147483648 ≤ number ∧ number ≤ 2147483647 then
    .int (Int32.ofInt number)
  else
    .long (Int64.ofInt number)

/-- The object that is read, before it is validated. -/
def Scalar.value {S : Type} (vf : ValueFactory S) : Scalar → Value
  | null => .null
  | none => .NONE
  | boolean value => .boolean value
  | integer value => narrowed value.toInt
  | float bits => .float (floatToIntBits bits)
  | double bits => .double (doubleToLongBits bits)
  | emptyString => .string []
  | string contents => .string (vf.newString contents)
  | binary contents =>
      .array .byte (contents.map fun byte => .byte byte.toInt8)

namespace BinaryTaggedDataInput

variable {S : Type} {vf : ValueFactory S}
  {read : Option Validator → Bool → Reader S Value} {input : Input S}

/-! ## Bytes -/

theorem get_ok {α : Type} {op : FlexBuffer → Except Exception (α × FlexBuffer)}
    {value : α} {buf : FlexBuffer} (got : op input.buf = .ok (value, buf)) :
    get op input = .ok value { input with buf } := by
  unfold get
  rw [got]

theorem get_error {α : Type}
    {op : FlexBuffer → Except Exception (α × FlexBuffer)}
    {exception : Exception} (got : op input.buf = .error exception) :
    (get op input : EStateM.Result Thrown (Input S) α) =
      .error (.buffer exception) input := by
  unfold get
  rw [got]

/-- A number is read from its bytes. -/
theorem getNumber_ok {size : Nat} {bytes rest : List UInt8}
    (unread : input.buf.unread = bytes ++ rest)
    (length : bytes.length = size) :
    ∃ buf, buf.unread = rest ∧
      get (fun buf => buf.getNumber size) input =
        .ok (Int.bmod (ofBytes bytes) (256 ^ size)) { input with buf } := by
  obtain ⟨buf, got, left⟩ := FlexBuffer.getFully_append unread
  rw [length] at got
  exact ⟨buf, left,
    get_ok (FlexBuffer.getNumber_eq_ok_iff.mpr ⟨bytes, got, rfl⟩)⟩

theorem ofInt_bmod_byte (byte : UInt8) :
    Int8.ofInt (Int.bmod (ofBytes [byte]) (256 ^ 1)) = byte.toInt8 := by
  have one : ofBytes [byte] = byte.toNat := by
    simp [ofBytes]
  rw [one]
  apply Int8.toInt_inj.mp
  rw [Int8.toInt_ofInt]
  change _ = byte.toBitVec.toInt
  rw [BitVec.toInt_eq_toNat_bmod]
  exact Int.bmod_bmod ..

theorem getByte_cons {byte : UInt8} {rest : List UInt8}
    (unread : input.buf.unread = byte :: rest) :
    ∃ buf, buf.unread = rest ∧
      getByte input = .ok byte.toInt8 { input with buf } := by
  have whole : input.buf.unread = [byte] ++ rest := unread
  have single : [byte].length = 1 := rfl
  obtain ⟨buf, left, got⟩ := getNumber_ok whole single
  refine ⟨buf, left, (bind_ok got).trans ?_⟩
  exact congrArg (EStateM.Result.ok · { input with buf })
    (ofInt_bmod_byte byte)

theorem getByte_nil (unread : input.buf.unread = []) :
    getByte input =
      .error (.buffer (.eofException "len > avail()")) input := by
  have short : input.buf.avail < 1 := by
    rw [← input.buf.length_unread, unread]
    exact Nat.zero_lt_one
  refine bind_error (get_error ?_)
  rw [FlexBuffer.getByte, FlexBuffer.getNumber,
    FlexBuffer.getFully_error short]
  rfl

/-- The code of a value, and then what follows it. -/
theorem readValueBody_cons {code : Int8} {rest : List UInt8}
    (unread : input.buf.unread = code.toUInt8 :: rest)
    (v : Option Validator) (noneOk : Bool) :
    ∃ buf, buf.unread = rest ∧
      readValueBody vf read v noneOk input =
        readPayload vf read code v noneOk { input with buf } := by
  obtain ⟨buf, left, got⟩ := getByte_cons unread
  refine ⟨buf, left, (bind_ok got).trans ?_⟩
  rw [Int8.toInt8_toUInt8]

/-! ## Scalars without a length -/

/-- The value of a tiny integer is its code. -/
theorem readPayload_tiny {code : Int8} (tiny : -64 ≤ code.toInt)
    (v : Option Validator) (noneOk : Bool) :
    readPayload vf read code v noneOk =
      throwing (validateValue vf v (.byte code)) := by
  have other {c : Int8} (below : c.toInt < -64) : code ≠ c := by
    rintro rfl
    omega
  have isTiny : code ≥ TypeCode.MIN_TINY_INT ∧
      code ≤ TypeCode.MAX_TINY_INT :=
    BinaryTaggedDataOutput.tiny_iff.mpr
      ⟨tiny, Int.le_of_lt_add_one code.toInt_lt⟩
  unfold readPayload
  rw [if_neg (other (by decide)), if_neg (other (by decide)),
    if_neg (other (by decide)), if_neg (other (by decide)),
    if_neg (other (by decide)), if_neg (other (by decide)),
    if_neg (other (by decide)), if_neg (other (by decide)),
    if_neg (other (by decide)), if_neg (other (by decide)),
    if_neg (other (by decide)), if_neg (other (by decide)),
    if_neg (other (by decide)), if_neg (other (by decide)),
    if_neg (not_or.mpr ⟨other (by decide), other (by decide)⟩),
    if_pos isTiny]

/-- What the validator makes of a scalar. -/
def outcome (vf : ValueFactory S) (v : Option Validator) (noneOk : Bool)
    (s : Scalar) : Reader S Value :=
  if s = .none ∧ noneOk = true then return .NONE
  else throwing (validateValue vf v (s.value vf))

theorem outcome_plain {s : Scalar} (plain : s ≠ .none)
    (v : Option Validator) (noneOk : Bool) :
    outcome vf v noneOk s = throwing (validateValue vf v (s.value vf)) :=
  if_neg fun both => plain both.1

/-- The scalar is read, and nothing else. -/
def Reads (vf : ValueFactory S)
    (read : Option Validator → Bool → Reader S Value)
    (input : Input S) (s : Scalar) (rest : List UInt8) : Prop :=
  ∀ v noneOk, ∃ buf, buf.unread = rest ∧
    readValueBody vf read v noneOk input =
      outcome vf v noneOk s { input with buf }

/-- A number is read as it was written. -/
theorem getNumber_numberBytes {size : Nat} {number : Int}
    {rest : List UInt8}
    (unread : input.buf.unread =
      FlexBuffer.numberBytes size number ++ rest)
    (lower : -256 ^ size ≤ 2 * number) (upper : 2 * number < 256 ^ size) :
    ∃ buf, buf.unread = rest ∧
      get (fun buf => buf.getNumber size) input =
        .ok number { input with buf } := by
  obtain ⟨buf, left, got⟩ :=
    getNumber_ok unread (FlexBuffer.length_numberBytes size number)
  rw [FlexBuffer.bmod_numberBytes lower upper] at got
  exact ⟨buf, left, got⟩

/-- A code that is followed by a number of some size. -/
theorem reads_number {code : Int8} {size : Nat} {number : Int} {s : Scalar}
    {rest : List UInt8}
    {op : FlexBuffer → Except Exception (Int × FlexBuffer)}
    (same : ∀ buf, op buf = buf.getNumber size)
    (unread : input.buf.unread =
      code.toUInt8 :: (FlexBuffer.numberBytes size number ++ rest))
    (lower : -256 ^ size ≤ 2 * number) (upper : 2 * number < 256 ^ size)
    (plain : s ≠ .none) {value : Int → Value}
    (payload : ∀ v noneOk, readPayload vf read code v noneOk = (do
      let number ← get op
      throwing (validateValue vf v (value number))))
    (is : s.value vf = value number) : Reads vf read input s rest := by
  obtain rfl : op = fun buf => buf.getNumber size := funext same
  intro v noneOk
  rw [outcome_plain plain, is]
  obtain ⟨buf, left, does⟩ := readValueBody_cons unread v noneOk
  obtain ⟨next, left', got⟩ := getNumber_numberBytes
    (show ({ input with buf } : Input S).buf.unread = _ from left)
    lower upper
  refine ⟨next, left', does.trans ?_⟩
  rw [payload]
  exact bind_ok got

theorem reads_integer {n : Int64} {rest : List UInt8}
    (unread : input.buf.unread = (Scalar.integer n).encode ++ rest) :
    Reads vf read input (.integer n) rest := by
  have plain : Scalar.integer n ≠ .none := nofun
  have lower := n.le_toInt
  have upper := n.toInt_lt
  have value : (Scalar.integer n).value vf = narrowed n.toInt := rfl
  rw [Scalar.encode] at unread
  generalize n.toInt = number at lower upper value unread
  by_cases tiny : -64 ≤ number ∧ number ≤ 127
  · intro v noneOk
    rw [outcome_plain plain, value, narrowed, if_pos (by omega)]
    have code := Int8.toInt_ofInt_of_le (n := number) (by omega) (by omega)
    rw [Scalar.integerBytes, if_pos tiny, ← code,
      FlexBuffer.numberBytes_one] at unread
    obtain ⟨buf, left, does⟩ := readValueBody_cons unread v noneOk
    refine ⟨buf, left, does.trans ?_⟩
    rw [readPayload_tiny (by omega)]
  · rw [Scalar.integerBytes, if_neg tiny] at unread
    unfold narrowed at value
    split_ifs at unread value
    · exact reads_number (fun _ => rfl) unread (by omega) (by omega) plain
        (fun _ _ => rfl) value
    · exact reads_number (fun _ => rfl) unread (by omega) (by omega) plain
        (fun _ _ => rfl) value
    · exact reads_number FlexBuffer.getInt_eq unread (by omega) (by omega)
        plain (fun _ _ => rfl) value
    · exact reads_number (fun _ => rfl) unread (by omega) (by omega) plain
        (fun _ _ => rfl) value

/-- A code that stands for itself. -/
theorem reads_code {code : Int8} {s : Scalar} {rest : List UInt8}
    (unread : input.buf.unread = code.toUInt8 :: rest) (plain : s ≠ .none)
    (payload : ∀ v noneOk, readPayload vf read code v noneOk =
      throwing (validateValue vf v (s.value vf))) :
    Reads vf read input s rest := by
  intro v noneOk
  rw [outcome_plain plain]
  obtain ⟨buf, left, does⟩ := readValueBody_cons unread v noneOk
  exact ⟨buf, left, does.trans (congrFun (payload v noneOk) _)⟩

theorem reads_none {rest : List UInt8}
    (unread : input.buf.unread = TypeCode.NONE.toUInt8 :: rest) :
    Reads vf read input .none rest := by
  intro v noneOk
  obtain ⟨buf, left, does⟩ := readValueBody_cons unread v noneOk
  refine ⟨buf, left, does.trans ?_⟩
  cases noneOk <;> rfl

/-- The bits of a float are read as a signed number. -/
theorem toUInt32_ofInt_bmod (bits : Nat) :
    (Int32.ofInt (Int.bmod bits (256 ^ 4))).toUInt32 =
      UInt32.ofNat bits := by
  have power : (256 ^ 4 : Nat) = 2 ^ 32 := by norm_num
  rw [power]
  apply UInt32.toBitVec_inj.mp
  change BitVec.ofInt 32 (Int.bmod bits (2 ^ 32)) = BitVec.ofNat 32 bits
  apply BitVec.eq_of_toInt_eq
  rw [BitVec.toInt_ofInt, BitVec.toInt_eq_toNat_bmod, BitVec.toNat_ofNat,
    Int.bmod_bmod, Int.natCast_mod, Int.emod_bmod]

theorem toUInt64_ofInt_bmod (bits : Nat) :
    (Int64.ofInt (Int.bmod bits (256 ^ 8))).toUInt64 =
      UInt64.ofNat bits := by
  have power : (256 ^ 8 : Nat) = 2 ^ 64 := by norm_num
  rw [power]
  apply UInt64.toBitVec_inj.mp
  change BitVec.ofInt 64 (Int.bmod bits (2 ^ 64)) = BitVec.ofNat 64 bits
  apply BitVec.eq_of_toInt_eq
  rw [BitVec.toInt_ofInt, BitVec.toInt_eq_toNat_bmod, BitVec.toNat_ofNat,
    Int.bmod_bmod, Int.natCast_mod, Int.emod_bmod]

theorem ofBytes_numberBytes {size bits : Nat} (fits : bits < 256 ^ size) :
    ofBytes (FlexBuffer.numberBytes size bits) = bits := by
  have same : ((bits : Int) % 256 ^ size).toNat = bits := by
    have cast : ((256 ^ size : Nat) : Int) = 256 ^ size := by
      push_cast
      rfl
    rw [← cast, ← Int.natCast_mod, Int.toNat_natCast, Nat.mod_eq_of_lt fits]
  rw [FlexBuffer.numberBytes, same, ofBytes_toBytes_of_lt fits]

theorem reads_float {bits : UInt32} {rest : List UInt8}
    (unread : input.buf.unread = (Scalar.float bits).encode ++ rest) :
    Reads vf read input (.float bits) rest := by
  intro v noneOk
  have plain : Scalar.float bits ≠ .none := nofun
  rw [outcome_plain plain]
  obtain ⟨buf, left, does⟩ := readValueBody_cons unread v noneOk
  obtain ⟨next, left', got⟩ := getNumber_ok
    (show ({ input with buf } : Input S).buf.unread = _ from left)
    (FlexBuffer.length_numberBytes 4 bits.toNat)
  refine ⟨next, left', does.trans ?_⟩
  have got : get FlexBuffer.getInt { input with buf } = _ :=
    (congrArg (get · _) (funext FlexBuffer.getInt_eq)).trans got
  refine (bind_ok got).trans ?_
  rw [ofBytes_numberBytes bits.toNat_lt, toUInt32_ofInt_bmod,
    UInt32.ofNat_toNat]
  rfl

theorem reads_double {bits : UInt64} {rest : List UInt8}
    (unread : input.buf.unread = (Scalar.double bits).encode ++ rest) :
    Reads vf read input (.double bits) rest := by
  intro v noneOk
  have plain : Scalar.double bits ≠ .none := nofun
  rw [outcome_plain plain]
  obtain ⟨buf, left, does⟩ := readValueBody_cons unread v noneOk
  obtain ⟨next, left', got⟩ := getNumber_ok
    (show ({ input with buf } : Input S).buf.unread = _ from left)
    (FlexBuffer.length_numberBytes 8 bits.toNat)
  refine ⟨next, left', does.trans ?_⟩
  have got : get FlexBuffer.getLong { input with buf } = _ := got
  refine (bind_ok got).trans ?_
  rw [ofBytes_numberBytes bits.toNat_lt, toUInt64_ofInt_bmod,
    UInt64.ofNat_toNat]
  rfl

/-- A scalar without a length. -/
theorem reads_plain {s : Scalar} {rest : List UInt8}
    (unread : input.buf.unread = s.encode ++ rest)
    (noString : ∀ contents, s ≠ .string contents)
    (noBytes : ∀ contents, s ≠ .binary contents) :
    Reads vf read input s rest := by
  cases s with
  | null => exact reads_code unread nofun fun _ _ => rfl
  | none => exact reads_none unread
  | boolean value =>
      cases value
      · exact reads_code unread nofun fun _ _ => rfl
      · exact reads_code unread nofun fun _ _ => rfl
  | integer n => exact reads_integer unread
  | float bits => exact reads_float unread
  | double bits => exact reads_double unread
  | emptyString => exact reads_code unread nofun fun _ _ => rfl
  | string contents => exact absurd rfl (noString contents)
  | binary contents => exact absurd rfl (noBytes contents)

/-! ## Lengths -/

theorem integer?_narrowed (n : Int64) :
    (narrowed n.toInt).integer? = some n.toInt := by
  have lower := n.le_toInt
  have upper := n.toInt_lt
  generalize n.toInt = number at lower upper
  unfold narrowed
  split_ifs
  · exact congrArg some (Int8.toInt_ofInt_of_le (by omega) (by omega))
  · exact congrArg some (Int16.toInt_ofInt_of_le (by omega) (by omega))
  · exact congrArg some (Int32.toInt_ofInt_of_le (by omega) (by omega))
  · exact congrArg some (Int64.toInt_ofInt_of_le (by omega) (by omega))

/-- An integer that has a width is what its validator wants. -/
theorem validateValue_integer {value : Value} {number : Int} {width : Width}
    (is : value.integer? = some number) (inside : width.InRange number) :
    validateValue vf (some (.integer width 0)) value =
      .ok (width.value number) := by
  have valid : Validator.validate vf.classes (.integer width 0) value =
      true := by
    rw [Validator.validate, is]
    exact decide_eq_true inside
  have accepted : Validator.validateValue vf.classes (.integer width 0)
      value = .ok (width.value number) := by
    rw [Validator.validateValue, if_pos valid, is]
  cases value with
  | null => exact nomatch is
  | _ => exact accepted

/-- An integer that an `int` can hold, for the validator of one. -/
theorem validateValue_int (n : Int32) :
    validateValue vf (some (.integer .int 0))
      ((Scalar.integer n.toInt64).value vf) = .ok (.int n) := by
  have is := integer?_narrowed n.toInt64
  rw [Int32.toInt_toInt64] at is
  have inside : Width.int.InRange n.toInt := ⟨n.le_toInt, n.toInt_lt⟩
  rw [Scalar.value, Int32.toInt_toInt64, validateValue_integer is inside,
    Width.value, Int32.ofInt_toInt]

theorem readIntegerValue_ok {n : Int32} {after : Input S}
    (got : read (some (.integer .int 0)) false input = .ok (.int n) after) :
    readIntegerValue read input = .ok n.toInt after :=
  bind_ok got

/-- A length within the budget is accepted. -/
theorem readLength_ok {n : Int32} {after : Input S}
    (got : read (some (.integer .int 0)) false input = .ok (.int n) after)
    (positive : 0 ≤ n.toInt) (fits : n.toInt ≤ after.lengthBudget) :
    readLength read input = .ok n.toInt.toNat
      { after with
        lengthBudget := after.lengthBudget - n.toInt
        lengths := after.lengths ++ [(n.toInt, true)] } := by
  have takes : takeLength n.toInt after = .ok ()
      { after with
        lengthBudget := after.lengthBudget - n.toInt
        lengths := after.lengths ++ [(n.toInt, true)] } := by
    unfold takeLength
    rw [if_neg (by omega)]
  exact (bind_ok (readIntegerValue_ok got)).trans (bind_ok takes)

end BinaryTaggedDataInput

end Etch.Java
