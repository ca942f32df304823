import Etch.CSharp.JavaComparison

/-!
# The decoders of C# and of Java on the same bytes

With factories that are the same, the two decoders do the same on any bytes,
one call of the C# decoder for each of the Java one.  Only null in an array of
numbers is refused by Java and becomes zero in C#.  Strings are compared as
far as they are ASCII, and value types that Java has classes for as far as
they make no difference.
-/

namespace Etch.CSharp.BinaryTaggedDataInput

open Etch.Library.BigEndian
open Etch.Library.Simulation
open Etch.Library.Stateful
open Validator (SameValue SameValidator sameValidator_some
  elementValidator_alike validateValue_alike)

variable {S T : Type} {names : Names} {vf : Java.ValueFactory S}
  {vf' : ValueFactory T} {types : Types} {same : S → T → Prop}

/-! ## Calls -/

theorem simulates_throwing {α β : Type} {relates : α → β → Prop}
    {result : Except Java.Thrown α} {result' : Except Thrown β}
    (alike : Alike relates result result') :
    Simulates (comparison types same) relates
      (Java.BinaryTaggedDataInput.throwing result) (throwing result') := by
  cases result with
  | ok value =>
      cases result' with
      | ok value' => exact .pure alike
      | error thrown => exact alike.elim
  | error thrown =>
      cases result' with
      | ok value' => exact alike.elim
      | error thrown' => exact .throw _ _

theorem simulates_call {α β : Type} {relates : α → β → Prop}
    {m : EStateM Java.Thrown S α} {n : EStateM Thrown T β}
    (simulates : Simulates (.exact same) relates m n) :
    Simulates (comparison types same) relates
      (Java.BinaryTaggedDataInput.call m) (call n) := by
  intro input input' holds
  have outcome := simulates _ _ holds.factory
  unfold Java.BinaryTaggedDataInput.call call
  generalize m input.factory = result at outcome ⊢
  generalize n input'.factory = result' at outcome ⊢
  cases outcome with
  | returned related factory =>
      exact .returned related { holds with factory }
  | failed => exact .failed
  | strayed strays => exact strays.elim
  | beyond beyond => exact beyond.elim

theorem call_bind {α β : Type} (m : EStateM Java.Thrown S α)
    (rest : α → EStateM Java.Thrown S β) :
    Java.BinaryTaggedDataInput.call (m >>= rest) =
      Java.BinaryTaggedDataInput.call m >>= fun value =>
        Java.BinaryTaggedDataInput.call (rest value) := by
  funext input
  cases done : m input.factory with
  | ok value factory =>
      have called : Java.BinaryTaggedDataInput.call m input =
          .ok value { input with factory } := by
        rw [Java.BinaryTaggedDataInput.call, done]
      rw [bind_ok called]
      unfold Java.BinaryTaggedDataInput.call
      rw [bind_ok done]
  | error thrown factory =>
      have called : Java.BinaryTaggedDataInput.call m input =
          .error thrown { input with factory } := by
        rw [Java.BinaryTaggedDataInput.call, done]
      rw [bind_error called]
      unfold Java.BinaryTaggedDataInput.call
      rw [bind_error done]

/-- The bytes that are left are the same afterwards. -/
def SameRest {α β : Type} (relates : α → β → Prop)
    (result : α × Java.FlexBuffer) (result' : β × FlexBuffer) : Prop :=
  relates result.1 result'.1 ∧ result.2.unread = result'.2.unread

theorem simulates_get {α β : Type} {relates : α → β → Prop}
    {op : Java.FlexBuffer → Except Java.Exception (α × Java.FlexBuffer)}
    {op' : FlexBuffer → Except Thrown (β × FlexBuffer)}
    (alike : ∀ buf buf', buf.unread = buf'.unread →
      Alike (SameRest relates) (op buf) (op' buf')) :
    Simulates (comparison types same) relates
      (Java.BinaryTaggedDataInput.get op) (get op') := by
  intro input input' holds
  have alike := alike _ _ holds.unread
  unfold Java.BinaryTaggedDataInput.get get
  generalize op input.buf = result at alike ⊢
  generalize op' input'.buf = result' at alike ⊢
  cases result with
  | ok result =>
      cases result' with
      | ok result' =>
          exact .returned alike.1 { holds with unread := alike.2 }
      | error thrown => exact alike.elim
  | error thrown =>
      cases result' with
      | ok result' => exact alike.elim
      | error thrown' => exact .failed

theorem simulates_avail :
    Simulates (comparison types same) Eq
      Java.BinaryTaggedDataInput.avail avail := by
  intro input input' holds
  refine .returned ?_ holds
  rw [← Java.FlexBuffer.length_unread, holds.unread,
    FlexBuffer.length_unread]

theorem simulates_endOfBuffer {α β : Type} {relates : α → β → Prop} :
    Simulates (comparison types same) relates
      (Java.BinaryTaggedDataInput.endOfBuffer : Java.Reader S α)
      (endOfBuffer : Reader T β) :=
  .throw _ _

/-- A validator whose answer depends on a value type is not compared. -/
theorem simulates_ask (v : Validator) (value : Value) :
    Simulates (comparison types same)
      (fun _ _ => ¬ ValidatorDiffers types v value)
      (pure () : Java.Reader S Unit) (ask v value : Reader T Unit) := by
  intro input input' holds
  by_cases differs : ValidatorDiffers types v value
  · exact .beyond (.inr (.inl
      ⟨(v, value), List.mem_append_right _ List.mem_cons_self, differs⟩))
  · exact .returned differs { holds with }

/-- A store that depends on a value type is not compared. -/
theorem simulates_store {element : ClrType} {value : Value}
    (kept : ¬ (value = .null ∧ element.isPrimitive = true)) :
    Simulates (comparison types same)
      (fun _ _ => ¬ StoreDiffers types element value)
      (pure () : Java.Reader S Unit)
      (store element value : Reader T Unit) := by
  intro input input' holds
  by_cases differs : StoreDiffers types element value
  · exact .beyond (.inr (.inr
      ⟨(element, value), List.mem_append_right _ List.mem_cons_self,
        differs⟩))
  · refine .returned differs { holds with kept := ?_ }
    rintro ⟨element', primitive, stored⟩
    rcases List.mem_append.mp stored with stored | stored
    · exact holds.kept ⟨element', primitive, stored⟩
    · cases List.mem_singleton.mp stored
      exact kept ⟨rfl, primitive⟩

/-! ## The buffer -/

theorem getFully_alike (length : Nat) {buf : Java.FlexBuffer}
    {buf' : FlexBuffer} (same : buf.unread = buf'.unread) :
    Alike (SameRest Eq) (buf.getFully length) (buf'.getFully length) := by
  have avail : buf.avail = buf'.avail := by
    rw [← buf.length_unread, ← buf'.length_unread, same]
  by_cases enough : length ≤ buf.avail
  · obtain ⟨next, got, left⟩ := Java.FlexBuffer.getFully_ok enough
    obtain ⟨next', got', left'⟩ :=
      FlexBuffer.getFully_ok (avail ▸ enough)
    rw [got, got']
    refine ⟨congrArg _ same, ?_⟩
    rw [left, left', same]
  · have short := Nat.lt_of_not_le enough
    rw [Java.FlexBuffer.getFully_error short,
      FlexBuffer.getFully_error (avail ▸ short)]
    trivial

theorem simulates_getFully (length : Nat) :
    Simulates (comparison types same) Eq
      (Java.BinaryTaggedDataInput.get fun buf => buf.getFully length)
      (get fun buf => buf.getFully length) :=
  simulates_get fun _ _ => getFully_alike length

/-- A number of so many bytes is the same number of that width. -/
theorem getNumber_alike {β : Type} (size : Nat) (ofInt : Int → β)
    (ofNat : Nat → β)
    (convert : ∀ value : Nat,
      ofInt (Int.bmod value (256 ^ size)) = ofNat value)
    {buf : Java.FlexBuffer} {buf' : FlexBuffer}
    (same : buf.unread = buf'.unread) :
    Alike (SameRest fun value value' => ofInt value = value')
      (buf.getNumber size)
      (do
        let (bytes, next) ← buf'.getFully size
        return (ofNat (ofBytes bytes), next)) := by
  have alike := getFully_alike size same
  unfold Java.FlexBuffer.getNumber
  generalize buf.getFully size = result at alike ⊢
  generalize buf'.getFully size = result' at alike ⊢
  cases result with
  | ok result =>
      cases result' with
      | ok result' =>
          obtain ⟨equal, rest⟩ := alike
          refine ⟨?_, rest⟩
          dsimp only at equal ⊢
          rw [equal]
          exact convert _
      | error thrown => exact alike.elim
  | error thrown =>
      cases result' with
      | ok result' => exact alike.elim
      | error thrown' => trivial

theorem simulates_getByte :
    Simulates (comparison types same)
      (fun value value' => Int8.ofInt value = value')
      (Java.BinaryTaggedDataInput.get Java.FlexBuffer.getByte :
        Java.Reader S Int)
      (get FlexBuffer.getByte : Reader T Int8) := by
  have convert (value : Nat) :
      Int8.ofInt (Int.bmod value (256 ^ 1)) = Int8.ofNat value := by
    rw [← Int8.ofInt_eq_ofNat, Int8.ofInt_eq_iff_bmod_eq_toInt]
    simp
  exact simulates_get fun _ _ same =>
    getNumber_alike 1 Int8.ofInt Int8.ofNat convert same

/-- The code of a value, or the version. -/
theorem simulates_code :
    Simulates (comparison types same) Eq
      (Java.BinaryTaggedDataInput.getByte : Java.Reader S Int8)
      (get FlexBuffer.getByte : Reader T Int8) :=
  Simulates.bind_pure simulates_getByte fun _ _ equal => equal

theorem simulates_getShort :
    Simulates (comparison types same)
      (fun value value' => Int16.ofInt value = value')
      (Java.BinaryTaggedDataInput.get Java.FlexBuffer.getShort :
        Java.Reader S Int)
      (get FlexBuffer.getShort : Reader T Int16) := by
  have convert (value : Nat) :
      Int16.ofInt (Int.bmod value (256 ^ 2)) = Int16.ofNat value := by
    rw [← Int16.ofInt_eq_ofNat, Int16.ofInt_eq_iff_bmod_eq_toInt]
    simp
  exact simulates_get fun _ _ same =>
    getNumber_alike 2 Int16.ofInt Int16.ofNat convert same

theorem simulates_getInt :
    Simulates (comparison types same)
      (fun value value' => Int32.ofInt value = value')
      (Java.BinaryTaggedDataInput.get Java.FlexBuffer.getInt :
        Java.Reader S Int)
      (get FlexBuffer.getInt : Reader T Int32) := by
  have convert (value : Nat) :
      Int32.ofInt (Int.bmod value (256 ^ 4)) = Int32.ofNat value := by
    rw [← Int32.ofInt_eq_ofNat, Int32.ofInt_eq_iff_bmod_eq_toInt]
    simp
  refine simulates_get fun buf _ same => ?_
  rw [Java.FlexBuffer.getInt_eq]
  exact getNumber_alike 4 Int32.ofInt Int32.ofNat convert same

theorem simulates_getLong :
    Simulates (comparison types same)
      (fun value value' => Int64.ofInt value = value')
      (Java.BinaryTaggedDataInput.get Java.FlexBuffer.getLong :
        Java.Reader S Int)
      (get FlexBuffer.getLong : Reader T Int64) := by
  have convert (value : Nat) :
      Int64.ofInt (Int.bmod value (256 ^ 8)) = Int64.ofNat value := by
    rw [← Int64.ofInt_eq_ofNat, Int64.ofInt_eq_iff_bmod_eq_toInt]
    simp
  exact simulates_get fun _ _ same =>
    getNumber_alike 8 Int64.ofInt Int64.ofNat convert same

/-! ## Lengths, types and fields -/

section Methods

variable (factory : SameFactory names vf vf' same)
  {readValue : Option Java.Validator → Bool → Java.Reader S Java.Value}
  {readValue' : Option Validator → Bool → Reader T Value}
  [∀ v noneOk, Grows (comparison vf'.types same) (readValue' v noneOk)]
  (reads : ∀ {v v'} noneOk, SameValidator names v v' →
    Simulates (comparison vf'.types same) (SameValue names)
      (readValue v noneOk) (readValue' v' noneOk))

include reads

omit [∀ v noneOk, Grows (comparison vf'.types same) (readValue' v noneOk)] in
theorem simulates_readIntegerValue :
    Simulates (comparison vf'.types same) Eq
      (Java.BinaryTaggedDataInput.readIntegerValue readValue)
      (readIntegerValue readValue') := by
  refine Simulates.bind
    (reads false (@sameValidator_some names (.integer .int 0) trivial)) ?_
  rintro _ value' rfl
  cases value' <;> first | exact .pure rfl | exact .throw _ _

omit reads
  [∀ v noneOk, Grows (comparison vf'.types same) (readValue' v noneOk)] in
theorem simulates_takeLength (length : Int) :
    Simulates (comparison types same) Eq
      (Java.BinaryTaggedDataInput.takeLength length : Java.Reader S Unit)
      (takeLength length : Reader T Unit) := by
  intro input input' holds
  unfold Java.BinaryTaggedDataInput.takeLength takeLength
  rw [holds.lengthBudget]
  split
  · exact .failed
  · exact .returned rfl { holds with lengthBudget := rfl }

omit [∀ v noneOk, Grows (comparison vf'.types same) (readValue' v noneOk)] in
theorem simulates_readLength :
    Simulates (comparison vf'.types same) Eq
      (Java.BinaryTaggedDataInput.readLength readValue)
      (readLength readValue') := by
  refine Simulates.bind (simulates_readIntegerValue reads) ?_
  rintro length _ rfl
  refine Simulates.bind (simulates_takeLength length) ?_
  rintro _ _ _
  exact .pure rfl

omit [∀ v noneOk, Grows (comparison vf'.types same) (readValue' v noneOk)] in
theorem simulates_readBytes :
    Simulates (comparison vf'.types same) Eq
      (Java.BinaryTaggedDataInput.readBytes readValue)
      (readBytes readValue') := by
  refine Simulates.bind (simulates_readLength reads) ?_
  rintro length _ rfl
  exact simulates_getFully length

include factory

omit [∀ v noneOk, Grows (comparison vf'.types same) (readValue' v noneOk)] in
theorem simulates_readType :
    Simulates (comparison vf'.types same) Eq
      (Java.BinaryTaggedDataInput.readType vf readValue)
      (readType vf' readValue') := by
  refine Simulates.bind
    (reads false (@sameValidator_some names intOrStrValidator
      ⟨trivial, trivial⟩)) ?_
  rintro _ obj rfl
  cases obj with
  | int id =>
      refine Simulates.bind (simulates_call (factory.getTypeById id)) ?_
      rintro type _ rfl
      exact .pure rfl
  | string name =>
      refine Simulates.bind (simulates_call (factory.getTypeByName name)) ?_
      rintro type _ rfl
      exact .pure rfl
  | _ => exact .throw _ _

omit [∀ v noneOk, Grows (comparison vf'.types same) (readValue' v noneOk)] in
theorem simulates_readField (type : XType) :
    Simulates (comparison vf'.types same) Eq
      (Java.BinaryTaggedDataInput.readField vf readValue type)
      (readField vf' readValue' type) := by
  refine Simulates.bind
    (reads true (@sameValidator_some names intOrStrValidator
      ⟨trivial, trivial⟩)) ?_
  rintro _ obj rfl
  cases obj with
  | NONE => exact .pure rfl
  | int id =>
      refine Simulates.bind (simulates_call (factory.getFieldById type id)) ?_
      rintro field _ rfl
      exact .pure rfl
  | string name =>
      refine Simulates.bind
        (simulates_call (factory.getFieldByName type name)) ?_
      rintro field _ rfl
      exact .pure rfl
  | _ => exact .throw _ _

/-! ## Structs -/

/-- The struct in Java. -/
def SameStruct (names : Names) (sv : Java.StructValue)
    (sv' : StructValue) : Prop :=
  sv = ⟨sv'.type, Value.javaFields names sv'.fields⟩

omit reads factory in
theorem new_alike (type : XType) (length : Int) :
    Alike (SameStruct names) (Java.StructValue.new type length)
      (StructValue.new type length) := by
  unfold Java.StructValue.new StructValue.new
  change Alike _ (if StructValue.capacity length < 0 then _ else _) _
  split
  · trivial
  · rfl

omit reads factory in
theorem remove_same (sv : StructValue) (key : Field) :
    SameStruct names (Java.StructValue.remove
      ⟨sv.type, Value.javaFields names sv.fields⟩ key) (sv.remove key) := by
  unfold SameStruct Java.StructValue.remove StructValue.remove
  simp only [Value.javaFields_eq, List.filter_map]
  rfl

omit reads factory in
theorem set_same (sv : StructValue) (key : Field) (value : Value) :
    SameStruct names (Java.StructValue.set
      ⟨sv.type, Value.javaFields names sv.fields⟩ key (value.java names))
      (sv.set key value) := by
  unfold SameStruct Java.StructValue.set StructValue.set
  simp only [Value.javaFields_eq, List.any_map, Function.comp_def]
  split
  · simp only [List.map_map, Function.comp_def, Java.StructValue.mk.injEq,
      true_and]
    refine List.map_congr_left fun entry _ => ?_
    split <;> rfl
  · simp only [List.map_append, List.map_cons, List.map_nil]

omit reads
  [∀ v noneOk, Grows (comparison vf'.types same) (readValue' v noneOk)] in
theorem simulates_add (sv : StructValue) (key : Field) (value : Value) :
    Simulates (comparison vf'.types same) (SameStruct names)
      (Java.BinaryTaggedDataInput.call
        (Java.StructValue.put vf ⟨sv.type, Value.javaFields names sv.fields⟩
          key (value.java names))) (add vf' sv key value) := by
  have set := @set_same names sv key value
  have validated {v : Validator} (regular : v.Regular) :=
    Validator.validate_java factory.types regular value
  cases value with
  | null => exact .pure (remove_same sv key)
  | _ =>
      unfold add Java.StructValue.put
      simp only [Value.java] at set validated ⊢
      rw [← factory.level]
      by_cases none : vf.level = .NONE
      · rw [if_pos none, if_neg (not_not_intro none)]
        exact .pure set
      · rw [if_neg none, if_pos none, call_bind]
        refine Simulates.bind
          (simulates_call (factory.getValidator sv.type key)) ?_
        rintro _ v ⟨rfl, regular⟩
        cases v with
        | none =>
            unfold checkEntry
            rw [← factory.level]
            by_cases full : vf.level = .FULL
            · simp only [Option.map_none, if_pos full]
              exact fun _ _ _ => .failed
            · simp only [Option.map_none, if_neg full]
              exact .pure set
        | some v =>
            have valid := validated (regular v rfl)
            rw [checkEntry, bind_assoc]
            refine Simulates.bind_right (simulates_ask v _)
              fun _ ordinary => ?_
            rw [← not_not.mp (not_or.mp ordinary).1] at valid
            simp only [Option.map_some, valid]
            cases v.validate vf'.types _ with
            | true => exact .pure set
            | false => exact fun _ _ _ => .failed

theorem simulates_startStruct :
    Simulates (comparison vf'.types same) (SameStruct names)
      (Java.BinaryTaggedDataInput.startStruct vf readValue)
      (startStruct vf' readValue') := by
  refine Simulates.bind (simulates_readType factory reads) ?_
  rintro type _ rfl
  refine Simulates.bind (simulates_readLength reads) ?_
  rintro length _ rfl
  exact simulates_throwing (new_alike type length)

theorem simulates_startMessage :
    Simulates (comparison vf'.types same) (SameStruct names)
      (Java.BinaryTaggedDataInput.startMessage vf readValue)
      (startMessage vf' readValue') := by
  refine Simulates.bind simulates_code ?_
  rintro version _ rfl
  refine Simulates.ite Iff.rfl (fun _ _ _ _ => .failed) fun _ => ?_
  exact simulates_startStruct factory reads

theorem simulates_readEntries (bytes : Nat) (sv : StructValue) :
    Simulates (comparison vf'.types same) (SameStruct names)
      (Java.BinaryTaggedDataInput.readEntries vf readValue bytes
        ⟨sv.type, Value.javaFields names sv.fields⟩)
      (readEntries vf' readValue' bytes sv) := by
  induction bytes generalizing sv with
  | zero => exact simulates_endOfBuffer
  | succ bytes ih =>
      refine Simulates.bind (simulates_readField factory reads sv.type) ?_
      rintro key _ rfl
      cases key with
      | none => exact .pure rfl
      | some key =>
          refine Simulates.bind
            (simulates_call (factory.getValidator sv.type key)) ?_
          rintro _ v ⟨rfl, regular⟩
          change Simulates _ _ _
            (readEntry vf' readValue' sv key v >>= fun sv =>
              readEntries vf' readValue' bytes sv)
          cases v with
          | none =>
              rw [readEntry, bind_assoc]
              refine Simulates.bind
                (reads false (@sameValidator_some names (.object 0) trivial))
                fun _ _ _ => ?_
              exact ih sv
          | some v =>
              rw [readEntry, bind_assoc]
              refine Simulates.bind
                (reads false (sameValidator_some (regular v rfl))) ?_
              rintro _ value rfl
              refine Simulates.bind (simulates_add factory sv key value) ?_
              rintro _ sv rfl
              exact ih sv

theorem simulates_readKeysAndValues (sv : StructValue) :
    Simulates (comparison vf'.types same) (SameStruct names)
      (Java.BinaryTaggedDataInput.readKeysAndValues vf readValue
        ⟨sv.type, Value.javaFields names sv.fields⟩)
      (readKeysAndValues vf' readValue' sv) := by
  refine Simulates.bind simulates_avail ?_
  rintro bytes _ rfl
  exact simulates_readEntries factory reads bytes sv

theorem simulates_readStruct :
    Simulates (comparison vf'.types same) (SameStruct names)
      (Java.BinaryTaggedDataInput.readStruct vf readValue)
      (readStruct vf' readValue') := by
  refine Simulates.bind (simulates_startStruct factory reads) ?_
  rintro _ sv rfl
  exact simulates_readKeysAndValues factory reads sv

/-! ## Arrays -/

/-- The array in Java. -/
structure SameArray (names : Names) (av : Java.ArrayValue)
    (av' : ArrayValue) : Prop where
  component : av.component = av'.element.java names
  elements : av.elements = Value.javaAll names av'.elements

omit reads factory
  [∀ v noneOk, Grows (comparison vf'.types same) (readValue' v noneOk)] in
theorem getNativeType_alike (type : Int8) :
    Alike (fun c c' => c = c'.java names)
      (Java.BinaryTaggedData.getNativeType type)
      (BinaryTaggedData.getNativeType type) := by
  unfold Java.BinaryTaggedData.getNativeType
    BinaryTaggedData.getNativeType
  split_ifs <;> trivial

omit reads
  [∀ v noneOk, Grows (comparison vf'.types same) (readValue' v noneOk)] in
theorem simulates_getComponentType (typeCode : Int8) (type : Option XType)
    (dim : Nat) :
    Simulates (comparison vf'.types same) (fun c c' => c = c'.java names)
      (Java.BinaryTaggedDataInput.getComponentType vf typeCode type dim)
      (getComponentType vf' typeCode type dim) := by
  have base : Simulates (comparison vf'.types same)
      (fun c c' => c = c'.java names)
      (Java.BinaryTaggedDataInput.getBaseType vf typeCode type)
      (getBaseType vf' typeCode type) := by
    cases type with
    | none => exact simulates_throwing (getNativeType_alike typeCode)
    | some type =>
        refine Simulates.bind
          (simulates_call (factory.getComponentType type)) ?_
        rintro _ c rfl
        cases c <;> exact .pure rfl
  refine Simulates.bind base ?_
  rintro _ c rfl
  exact .pure (ClrType.java_arrayOf c dim).symm

theorem simulates_startArray :
    Simulates (comparison vf'.types same) (SameArray names)
      (Java.BinaryTaggedDataInput.startArray vf readValue)
      (startArray vf' readValue') := by
  refine Simulates.bind simulates_code ?_
  rintro type _ rfl
  have structType : Simulates (comparison vf'.types same) Eq
      (Java.BinaryTaggedDataInput.readStructType vf readValue type)
      (readStructType vf' readValue' type) := by
    refine Simulates.ite Iff.rfl (fun _ => ?_) fun _ => .pure rfl
    refine Simulates.bind (simulates_readType factory reads) ?_
    rintro type _ rfl
    exact .pure rfl
  refine Simulates.bind structType ?_
  rintro customStructType _ rfl
  refine Simulates.bind (simulates_readIntegerValue reads) ?_
  rintro dim _ rfl
  have dims : Alike (fun (_ : Unit) (_ : Unit) => True)
      (Java.BinaryTaggedDataInput.checkDim dim) (checkDim dim) := by
    unfold Java.BinaryTaggedDataInput.checkDim checkDim
    change Alike _ _ (if dim ≤ 0 ∨ dim > (Java.Validator.MAX_NDIMS : Nat)
      then _ else _)
    split <;> trivial
  refine Simulates.bind (simulates_throwing dims) fun _ _ _ => ?_
  refine Simulates.bind (simulates_readLength reads) fun _ _ _ => ?_
  refine Simulates.bind
    (simulates_getComponentType factory type customStructType _) ?_
  rintro _ component rfl
  exact .pure ⟨rfl, rfl⟩

omit reads
  [∀ v noneOk, Grows (comparison vf'.types same) (readValue' v noneOk)] in
/-- Null in an array of numbers is refused in Java only. -/
theorem simulates_addValue {av : Java.ArrayValue} {av' : ArrayValue}
    (arrays : SameArray names av av') (value : Value) :
    Simulates (comparison vf'.types same) (SameArray names)
      (Java.BinaryTaggedDataInput.throwing
        (av.add vf.classes.isSuper (value.java names)))
      (addValue vf' av' value) := by
  obtain ⟨component, elements⟩ := arrays
  by_cases null : value = .null ∧ av'.element.isPrimitive = true
  · obtain ⟨rfl, primitive⟩ := null
    obtain ⟨thrown, refused⟩ :=
      @stored_null names _ primitive vf.classes.isSuper
    have throws : Java.ArrayValue.add vf.classes.isSuper av
        (Value.java names .null) = .error thrown := by
      rw [Java.ArrayValue.add, component]
      change (Java.ArrayValue.stored _ _ .null >>= _) = _
      rw [refused]
      rfl
    rw [throws]
    intro input input' holds
    exact .strayed ⟨av'.element, primitive,
      List.mem_append_right _ List.mem_cons_self⟩
  · refine Simulates.bind_right (simulates_store null) fun _ equal => ?_
    refine simulates_throwing ?_
    have stored := stored_alike factory.types av'.element value null
    rw [← not_not.mp equal] at stored
    unfold Java.ArrayValue.add ArrayValue.add
    rw [component]
    generalize Java.ArrayValue.stored _ _ _ = result at stored ⊢
    generalize ArrayValue.stored _ _ _ = result' at stored ⊢
    cases result with
    | ok value =>
        cases result' with
        | ok value' =>
            refine ⟨rfl, ?_⟩
            change av.elements ++ [value] =
              Value.javaAll names (av'.elements ++ [value'])
            rw [elements, Value.javaAll_append, show value = _ from stored]
            rfl
        | error thrown => exact stored.elim
    | error thrown =>
        cases result' with
        | ok value' => exact stored.elim
        | error thrown' => trivial

theorem simulates_readElements {ev : Option Java.Validator}
    {ev' : Option Validator} (validator : SameValidator names ev ev')
    (bytes : Nat) {av : Java.ArrayValue} {av' : ArrayValue}
    (arrays : SameArray names av av') :
    Simulates (comparison vf'.types same) (SameArray names)
      (Java.BinaryTaggedDataInput.readElements vf readValue ev bytes av)
      (readElements vf' readValue' ev' bytes av') := by
  induction bytes generalizing av av' with
  | zero => exact simulates_endOfBuffer
  | succ bytes ih =>
      refine Simulates.bind (reads true validator) ?_
      rintro _ value rfl
      have add := simulates_addValue factory arrays value
      cases value with
      | NONE => exact .pure arrays
      | _ =>
          refine Simulates.bind add ?_
          intro av av' arrays
          exact ih arrays

theorem simulates_readValues {av : Java.ArrayValue} {av' : ArrayValue}
    (arrays : SameArray names av av')
    {v : Option Java.Validator} {v' : Option Validator}
    (validator : SameValidator names v v') :
    Simulates (comparison vf'.types same) (SameArray names)
      (Java.BinaryTaggedDataInput.readValues vf readValue av v)
      (readValues vf' readValue' av' v') := by
  obtain ⟨rfl, regular⟩ := validator
  cases v' with
  | none => exact .throw _ _
  | some v =>
      refine Simulates.bind
        (simulates_throwing (elementValidator_alike (regular v rfl))) ?_
      intro ev ev' validator
      refine Simulates.bind simulates_avail ?_
      rintro bytes _ rfl
      exact simulates_readElements factory reads validator bytes arrays

theorem simulates_readArray {v : Option Java.Validator}
    {v' : Option Validator} (validator : SameValidator names v v') :
    Simulates (comparison vf'.types same) (SameArray names)
      (Java.BinaryTaggedDataInput.readArray vf readValue v)
      (readArray vf' readValue' v') := by
  refine Simulates.bind (simulates_startArray factory reads) ?_
  intro av av' arrays
  exact simulates_readValues factory reads arrays validator

/-! ## Values -/

omit reads
  [∀ v noneOk, Grows (comparison vf'.types same) (readValue' v noneOk)] in
theorem simulates_validateValue {v : Option Java.Validator}
    {v' : Option Validator} (validator : SameValidator names v v')
    {value : Java.Value} {value' : Value}
    (equal : SameValue names value value') :
    Simulates (comparison vf'.types same) (SameValue names)
      (Java.BinaryTaggedDataInput.throwing
        (Java.BinaryTaggedDataInput.validateValue vf v value))
      (validateValue vf' v' value') := by
  obtain rfl := equal
  obtain ⟨rfl, regular⟩ := validator
  cases v' with
  | none => cases value' <;> exact .pure rfl
  | some v =>
      have valid := validateValue_alike factory.types (regular v rfl) value'
      cases value' with
      | null => exact .pure rfl
      | _ =>
          refine Simulates.bind_right (simulates_ask v _) fun _ ordinary => ?_
          rw [← not_not.mp (not_or.mp ordinary).2] at valid
          exact simulates_throwing valid

omit reads
  [∀ v noneOk, Grows (comparison vf'.types same) (readValue' v noneOk)] in
/-- A string that is not ASCII is not compared any more. -/
theorem simulates_getString (bytes : List UInt8) :
    Simulates (comparison vf'.types same)
      (fun _ value => value = vf.newString bytes)
      (pure () : Java.Reader S Unit) (getString vf' bytes) := by
  intro input input' holds
  by_cases ascii : ∀ byte ∈ bytes, byte < 128
  · exact .returned (factory.newString bytes ascii).symm { holds with }
  · push Not at ascii
    obtain ⟨byte, member, other⟩ := ascii
    exact .beyond (.inl ⟨bytes,
      List.mem_append_right _ List.mem_cons_self, byte, member,
      UInt8.not_lt.mp other⟩)

omit reads factory
  [∀ v noneOk, Grows (comparison vf'.types same) (readValue' v noneOk)] in
theorem javaAll_bytes (bytes : List UInt8) :
    Value.javaAll names (bytes.map fun byte => .sbyte byte.toInt8) =
      bytes.map fun byte => .byte byte.toInt8 := by
  induction bytes with
  | nil => rfl
  | cons byte bytes ih =>
      exact congrArg (Java.Value.byte byte.toInt8 :: ·) ih

theorem simulates_readPayload (type : Int8) {v : Option Java.Validator}
    {v' : Option Validator} (noneOk : Bool)
    (validator : SameValidator names v v') :
    Simulates (comparison vf'.types same) (SameValue names)
      (Java.BinaryTaggedDataInput.readPayload vf readValue type v noneOk)
      (readPayload vf' readValue' type v' noneOk) := by
  have valid {value : Java.Value} {value' : Value}
      (equal : SameValue names value value') :=
    simulates_validateValue factory validator equal
  unfold Java.BinaryTaggedDataInput.readPayload readPayload
  refine .ite Iff.rfl (fun _ => valid rfl) fun _ => ?_
  refine .ite Iff.rfl (fun _ => ?_) fun _ => ?_
  · refine .ite Iff.rfl (fun _ => .pure rfl) fun _ => ?_
    exact valid rfl
  refine .ite Iff.rfl (fun _ => valid rfl) fun _ => ?_
  refine .ite Iff.rfl (fun _ => valid rfl) fun _ => ?_
  refine .ite Iff.rfl (fun _ => ?_) fun _ => ?_
  · refine Simulates.bind simulates_getByte ?_
    rintro value _ rfl
    exact valid rfl
  refine .ite Iff.rfl (fun _ => ?_) fun _ => ?_
  · refine Simulates.bind simulates_getShort ?_
    rintro value _ rfl
    exact valid rfl
  refine .ite Iff.rfl (fun _ => ?_) fun _ => ?_
  · refine Simulates.bind simulates_getInt ?_
    rintro value _ rfl
    exact valid rfl
  refine .ite Iff.rfl (fun _ => ?_) fun _ => ?_
  · refine Simulates.bind simulates_getLong ?_
    rintro value _ rfl
    exact valid rfl
  refine .ite Iff.rfl (fun _ => ?_) fun _ => ?_
  · refine Simulates.bind simulates_getInt ?_
    rintro value _ rfl
    exact valid rfl
  refine .ite Iff.rfl (fun _ => ?_) fun _ => ?_
  · refine Simulates.bind simulates_getLong ?_
    rintro value _ rfl
    exact valid rfl
  refine .ite Iff.rfl (fun _ => ?_) fun _ => ?_
  · refine Simulates.bind (simulates_readBytes reads) ?_
    rintro bytes _ rfl
    exact valid (congrArg (Java.Value.array .byte)
      (javaAll_bytes bytes).symm)
  refine .ite Iff.rfl (fun _ => ?_) fun _ => ?_
  · refine Simulates.bind (simulates_readArray factory reads validator) ?_
    intro av av' arrays
    refine valid ?_
    rw [Java.ArrayValue.getArray, arrays.component, arrays.elements]
    rfl
  refine .ite Iff.rfl (fun _ => valid rfl) fun _ => ?_
  refine .ite Iff.rfl (fun _ => ?_) fun _ => ?_
  · refine Simulates.bind (simulates_readBytes reads) ?_
    rintro bytes _ rfl
    refine Simulates.bind_right (simulates_getString factory bytes) ?_
    rintro _ rfl
    exact valid rfl
  refine .ite Iff.rfl (fun _ => ?_) fun _ => ?_
  · refine Simulates.bind (simulates_readStruct factory reads) ?_
    rintro _ sv rfl
    refine Simulates.bind
      (simulates_call (factory.importCustomValue sv.type sv.fields)) ?_
    intro value value' equal
    exact valid equal
  refine .ite Iff.rfl (fun _ => valid rfl) fun _ => ?_
  exact .throw _ _

theorem simulates_readValueBody {v : Option Java.Validator}
    {v' : Option Validator} (noneOk : Bool)
    (validator : SameValidator names v v') :
    Simulates (comparison vf'.types same) (SameValue names)
      (Java.BinaryTaggedDataInput.readValueBody vf readValue v noneOk)
      (readValueBody vf' readValue' v' noneOk) := by
  refine Simulates.bind simulates_code ?_
  rintro type _ rfl
  exact simulates_readPayload factory reads type noneOk validator

end Methods

section Messages

variable (factory : SameFactory names vf vf' same)

include factory

theorem simulates_readValue (bytes : Nat) {v : Option Java.Validator}
    {v' : Option Validator} (noneOk : Bool)
    (validator : SameValidator names v v') :
    Simulates (comparison vf'.types same) (SameValue names)
      (Java.BinaryTaggedDataInput.readValue vf bytes v noneOk)
      (readValue vf' bytes v' noneOk) := by
  induction bytes generalizing v v' noneOk with
  | zero => exact simulates_endOfBuffer
  | succ bytes ih =>
      exact simulates_readValueBody factory
        (fun noneOk validator => ih noneOk validator) noneOk validator

/-- Both fail, or both return the same message and leave the same bytes. -/
inductive Agree (names : Names) :
    EStateM.Result Java.Thrown (Java.Input S) Java.StructValue →
      EStateM.Result Thrown (Input T) StructValue → Prop where
  | returned {msg : Java.StructValue} {msg' : StructValue}
      {input : Java.Input S} {input' : Input T}
      (message : SameStruct names msg msg')
      (unread : input.buf.unread = input'.buf.unread) :
      Agree names (.ok msg input) (.ok msg' input')
  | failed {thrown : Java.Thrown} {thrown' : Thrown} {input : Java.Input S}
      {input' : Input T} : Agree names (.error thrown input)
      (.error thrown' input')

theorem readMessage_outcome {buf : Java.FlexBuffer} {buf' : FlexBuffer}
    (unread : buf.unread = buf'.unread) {state : S} {state' : T}
    (start : same state state') :
    Outcome (comparison vf'.types same) (SameStruct names)
      (Java.BinaryTaggedDataInput.readMessage vf buf state)
      (readMessage vf' buf' state') := by
  have avail : buf.avail = buf'.avail := by
    rw [← buf.length_unread, ← buf'.length_unread, unread]
  unfold Java.BinaryTaggedDataInput.readMessage readMessage
  rw [avail]
  have reads {v : Option Java.Validator} {v' : Option Validator}
      (noneOk : Bool) (validator : SameValidator names v v') :=
    simulates_readValue factory buf'.avail noneOk validator
  have simulates : Simulates (comparison vf'.types same) (SameStruct names)
      (do
        let msg ← Java.BinaryTaggedDataInput.startMessage vf
          (Java.BinaryTaggedDataInput.readValue vf buf'.avail)
        Java.BinaryTaggedDataInput.readKeysAndValues vf
          (Java.BinaryTaggedDataInput.readValue vf buf'.avail) msg)
      (do
        let msg ← startMessage vf' (readValue vf' buf'.avail)
        readKeysAndValues vf' (readValue vf' buf'.avail) msg) := by
    refine Simulates.bind (simulates_startMessage factory reads) ?_
    rintro _ msg rfl
    exact simulates_readKeysAndValues factory reads msg
  exact simulates _ _
    ⟨unread, rfl, start, fun ⟨_, _, stored⟩ => nomatch stored⟩

/-- The decoders agree unless the C# one returns a message after it has
stored null as a number. -/
theorem readMessage_agree_iff {buf : Java.FlexBuffer} {buf' : FlexBuffer}
    (unread : buf.unread = buf'.unread) {state : S} {state' : T}
    (start : same state state')
    (ascii : ∀ bytes ∈ (final (readMessage vf' buf' state')).strings,
      ∀ byte ∈ bytes, byte < 128)
    (checks : ∀ check ∈ (final (readMessage vf' buf' state')).checks,
      ¬ ValidatorDiffers vf'.types check.1 check.2)
    (stores : ∀ entry ∈ (final (readMessage vf' buf' state')).stores,
      ¬ StoreDiffers vf'.types entry.1 entry.2) :
    Agree names (Java.BinaryTaggedDataInput.readMessage vf buf state)
        (readMessage vf' buf' state') ↔
      ∀ msg input, readMessage vf' buf' state' = .ok msg input →
        ¬ Defaulted input := by
  have outcome := readMessage_outcome factory unread start
  generalize Java.BinaryTaggedDataInput.readMessage vf buf state = result
    at outcome ⊢
  generalize readMessage vf' buf' state' = result'
    at outcome ascii checks stores ⊢
  cases outcome with
  | returned related holds =>
      refine ⟨?_, fun _ => .returned related holds.unread⟩
      rintro _ msg input ⟨⟩
      exact holds.kept
  | failed => exact ⟨fun _ => nofun, fun _ => .failed⟩
  | strayed strays =>
      exact ⟨nofun, fun none => (none _ _ rfl strays).elim⟩
  | beyond beyond =>
      rcases beyond with ⟨bytes, member, byte, inside, other⟩ |
        ⟨check, member, other⟩ | ⟨entry, member, other⟩
      · exact absurd (ascii bytes member byte inside)
          (UInt8.not_lt.mpr other)
      · exact absurd other (checks check member)
      · exact absurd other (stores entry member)

end Messages

/-! ## An array of numbers with one element -/

/-- Whether a message is returned. -/
def returns {ε σ α : Type} : EStateM.Result ε σ α → Bool
  | .ok _ _ => true
  | .error _ _ => false

theorem not_agree
    {result : EStateM.Result Java.Thrown (Java.Input S) Java.StructValue}
    {result' : EStateM.Result Thrown (Input T) StructValue}
    (fails : returns result = false) (returned : returns result' = true) :
    ¬ Agree names result result' := by
  intro agree
  cases agree with
  | returned _ _ => exact nomatch fails
  | failed => exact nomatch returned

def swapped : Names where
  java := fun name =>
    Equiv.swap "BinaryTaggedData+SentinelObject" "BinaryTaggedData$1"
      (Equiv.swap "System.Exception" "java.lang.RuntimeException" name)
  injective := (Equiv.injective _).comp (Equiv.injective _)
  exception := by decide
  sentinel := by decide

/-- A type 1 with a field 2 for arrays of `int`. -/
def javaNumbers : Java.ValueFactory Unit where
  classes := ⟨fun _ _ => false, fun _ => []⟩
  level := .FULL
  getTypeById := fun id => return if id = 1 then some ⟨1, []⟩ else none
  getTypeByName := fun _ => return none
  getFieldById := fun _ id => return if id = 2 then some ⟨2, []⟩ else none
  getFieldByName := fun _ _ => return none
  getValidator := fun _ _ => return some (.integer .int 1)
  getComponentType := fun _ => return none
  getCustomStructType := fun _ => return none
  exportCustomValue := fun _ => return none
  importCustomValue := fun _ => return .null
  getBytes := fun _ => []
  newString := fun bytes => bytes.map UInt8.toUInt16

def numbers : ValueFactory Unit where
  types := ⟨fun _ => false, fun _ => [], fun _ _ => false, fun _ => []⟩
  level := .FULL
  getTypeById := fun id => return if id = 1 then some ⟨1, []⟩ else none
  getTypeByName := fun _ => return none
  getFieldById := fun _ id => return if id = 2 then some ⟨2, []⟩ else none
  getFieldByName := fun _ _ => return none
  getValidator := fun _ _ => return some (.integer .int 1)
  getComponentType := fun _ => return none
  importCustomValue := fun _ => return .null
  getString := fun bytes => bytes.map UInt8.toUInt16

theorem numbers_same :
    SameFactory swapped javaNumbers numbers fun _ _ => True where
  types := ⟨fun _ _ => rfl, fun _ _ _ => rfl, rfl⟩
  level := rfl
  getTypeById := fun _ => .pure rfl
  getTypeByName := fun _ => .pure rfl
  getFieldById := fun _ _ => .pure rfl
  getFieldByName := fun _ _ => .pure rfl
  getValidator := fun _ _ =>
    .pure (@sameValidator_some swapped (.integer .int 1) trivial)
  getComponentType := fun _ => .pure rfl
  importCustomValue := fun _ _ => .pure rfl
  newString := fun _ _ => rfl

/-- A message with an array of one element of one byte. -/
def withElement (element : UInt8) : List UInt8 :=
  [3, 1, 1, 2, 145, 134, 1, 1, element, 129, 129]

theorem length_withElement (element : UInt8) :
    (withElement element).length < 2 ^ 31 := by
  simp [withElement]

theorem not_defaulted
    {result : EStateM.Result Thrown (Input T) StructValue}
    (stores : ((final result).stores.all fun entry =>
      entry.2.getType.isSome) = true) (msg : StructValue) (input : Input T)
    (done : result = .ok msg input) : ¬ Defaulted input := by
  rintro ⟨element, _, stored⟩
  subst done
  exact nomatch List.all_eq_true.mp stores _ stored

theorem five_agrees :
    Agree swapped
      (Java.BinaryTaggedDataInput.readMessage javaNumbers
        (.adopt (withElement 5) (length_withElement 5)) ())
      (readMessage numbers
        (.adopt (withElement 5) (length_withElement 5)) ()) := by
  have strings : (final (readMessage numbers
      (.adopt (withElement 5) (length_withElement 5)) ())).strings = [] := by
    decide +kernel
  have stores : ((final (readMessage numbers
      (.adopt (withElement 5) (length_withElement 5)) ())).stores.all
        fun entry => entry.2.getType.isSome) = true := by
    decide +kernel
  have ascii : ∀ bytes ∈ (final (readMessage numbers
      (.adopt (withElement 5) (length_withElement 5)) ())).strings,
      ∀ byte ∈ bytes, byte < 128 := by
    rw [strings]
    exact nofun
  have checks (v : Validator) (value : Value) :
      ¬ ValidatorDiffers numbers.types v value :=
    fun differs => differs.elim (· rfl) (· rfl)
  have stored (element : ClrType) (value : Value) :
      ¬ StoreDiffers numbers.types element value :=
    fun differs => differs rfl
  have unread : (Java.FlexBuffer.adopt (withElement 5)
      (length_withElement 5)).unread = (FlexBuffer.adopt (withElement 5)
        (length_withElement 5)).unread := rfl
  have iff := @readMessage_agree_iff Unit Unit swapped javaNumbers numbers
    (fun _ _ => True) numbers_same _ _ unread () () trivial ascii
    (fun check _ => checks check.1 check.2)
    (fun entry _ => stored entry.1 entry.2)
  exact iff.mpr (not_defaulted stores)

/-- Java refuses null where C# reads 0. -/
theorem null_differs :
    SameFactory swapped javaNumbers numbers (fun _ _ => True) ∧
      ¬ Agree swapped
        (Java.BinaryTaggedDataInput.readMessage javaNumbers
          (.adopt (withElement 128) (length_withElement 128)) ())
        (readMessage numbers
          (.adopt (withElement 128) (length_withElement 128)) ()) := by
  have fails : returns (Java.BinaryTaggedDataInput.readMessage javaNumbers
      (.adopt (withElement 128) (length_withElement 128)) ()) = false := by
    decide +kernel
  have returned : returns (readMessage numbers
      (.adopt (withElement 128) (length_withElement 128)) ()) = true := by
    decide +kernel
  exact ⟨numbers_same, not_agree fails returned⟩

end Etch.CSharp.BinaryTaggedDataInput
