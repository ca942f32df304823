import Etch.Cpp.BinaryTaggedDataInput

/-!
# Runs of the C++ reader

What holds of the parts of a method holds of the method, for every relation
between methods that the ways of putting them together keep.  Two such
relations are here: a method forgets no call of `readValue` and puts no byte
back, and a run with more fuel goes on where one with less is cut off.
-/

namespace Etch.Cpp.EtchBinaryTaggedDataInput

open Etch.Library.Stateful

variable {S : Type}

/-! ## Putting methods together -/

/-- A call of the buffer puts no bytes back. -/
def Forward {α : Type}
    (op : EtchFlexBuffer → Option (α × EtchFlexBuffer)) : Prop :=
  ∀ fb value next, op fb = some (value, next) →
    next.getAvailableBytes ≤ fb.getAvailableBytes

/-- A method that makes no call of `readValue`, and uses no `NULL`. -/
structure Quiet {α : Type} (m : Reader S α) : Prop where
  asks : ∀ input, (final (m input)).asks = input.asks
  avail : ∀ input, (final (m input)).avail ≤ input.avail
  tame : ∀ input failure after, m input = .error failure after →
    failure ≠ .nullPointer ∧ failure ≠ .outOfFuel

section Forward

variable {α β : Type}

theorem forward_map {op : EtchFlexBuffer → Option (α × EtchFlexBuffer)}
    (forward : Forward op) (f : α → β) :
    Forward fun fb => (op fb).map fun (value, fb) => (f value, fb) := by
  intro fb value next got
  obtain ⟨⟨value', next'⟩, got', same⟩ := Option.map_eq_some_iff.mp got
  obtain ⟨rfl, rfl⟩ := Prod.mk.inj same
  exact forward _ _ _ got'

theorem forward_getNumber (size : Nat) :
    Forward fun fb => fb.getNumber size := by
  intro fb value next got
  have reads := (EtchFlexBuffer.getNumber_iff got).1
  have := reads.available
  omega

theorem forward_getInteger : Forward EtchFlexBuffer.getInteger :=
  forward_getNumber 4

theorem forward_getByte : Forward EtchFlexBuffer.getByte :=
  forward_map (forward_getNumber 1) _

theorem forward_get (length : Nat) :
    Forward fun fb => some (fb.get length) := by
  intro fb value next got
  obtain rfl := congrArg Prod.snd (Option.some.inj got)
  have := (fb.reads_get length).available
  omega

end Forward

section Quiet

variable {α : Type}

theorem quiet_pure (value : α) : Quiet (Pure.pure value : Reader S α) :=
  ⟨fun _ => rfl, fun _ => Nat.le_refl _, fun _ => nofun⟩

theorem quiet_throw {failure : Failure} (some : failure ≠ .nullPointer)
    (whole : failure ≠ .outOfFuel) :
    Quiet (throw failure : Reader S α) := by
  refine ⟨fun _ => rfl, fun _ => Nat.le_refl _, ?_⟩
  intro input failure' after threw
  obtain ⟨rfl, rfl⟩ := EStateM.Result.error.inj threw
  exact ⟨some, whole⟩

theorem quiet_get {op : EtchFlexBuffer → Option (α × EtchFlexBuffer)}
    (forward : Forward op) : Quiet (get op : Reader S α) := by
  refine ⟨fun input => ?_, fun input => ?_, ?_⟩
  · unfold get
    cases op input.mBuffer <;> rfl
  · unfold get
    cases got : op input.mBuffer with
    | none => exact Nat.le_refl _
    | some read => exact forward _ _ _ got
  · intro input failure after threw
    unfold get at threw
    cases got : op input.mBuffer with
    | none =>
        rw [got] at threw
        obtain ⟨rfl, rfl⟩ := EStateM.Result.error.inj threw
        exact ⟨nofun, nofun⟩
    | some read =>
        rw [got] at threw
        exact nomatch threw

theorem quiet_call (m : Lookup S α) : Quiet (call m) :=
  ⟨fun _ => rfl, fun _ => Nat.le_refl _, fun _ => nofun⟩

theorem quiet_put (vf : EtchValueFactory S) (sv : EtchStructValue)
    (key : EtchField) (value : EtchObject) : Quiet (put vf sv key value) :=
  ⟨fun _ => rfl, fun _ => Nat.le_refl _, fun _ => nofun⟩

theorem quiet_takeLength (length : Int) :
    Quiet (takeLength length : Reader S Unit) := by
  unfold takeLength
  refine ⟨fun input => ?_, fun input => ?_, ?_⟩
  · split_ifs <;> rfl
  · split_ifs <;> exact Nat.le_refl _
  · intro input failure after threw
    split_ifs at threw
    obtain ⟨rfl, rfl⟩ := EStateM.Result.error.inj threw
    exact ⟨nofun, nofun⟩

theorem quiet_throwing {result : Except Failure α}
    (tame : ∀ failure, result = .error failure →
      failure ≠ .nullPointer ∧ failure ≠ .outOfFuel) :
    Quiet (throwing result : Reader S α) := by
  cases result with
  | ok value => exact quiet_pure value
  | error failure =>
      obtain ⟨some, whole⟩ := tame failure rfl
      exact quiet_throw some whole

theorem quiet_validateValue (v : EtchValidator) (value : EtchObject) :
    Quiet (throwing (validateValue v value) : Reader S EtchObject) := by
  refine quiet_throwing fun failure threw => ?_
  unfold validateValue at threw
  split at threw
  · exact nomatch threw
  · split at threw
    · exact nomatch threw
    · obtain rfl := Except.error.inj threw
      exact ⟨nofun, nofun⟩

theorem quiet_orNamed (name : EtchString) (found : Option EtchName) :
    Quiet (orNamed name found : Reader S EtchName) := by
  cases found with
  | some found => exact quiet_pure found
  | none =>
      unfold orNamed
      cases EtchName.ofName name with
      | some item => exact quiet_pure item
      | none => exact quiet_throw nofun nofun

theorem quiet_add (av : EtchArrayValue) (value : EtchObject) :
    Quiet (throwing (av.add value) : Reader S EtchArrayValue) := by
  refine quiet_throwing fun failure threw => ?_
  unfold EtchArrayValue.add at threw
  split at threw
  · exact nomatch threw
  · rename_i failure' base
    obtain rfl := Except.error.inj threw
    unfold EtchArrayValue.setBase at base
    split_ifs at base
    · split at base
      · exact nomatch base
      · obtain rfl := Except.error.inj base
        exact ⟨nofun, nofun⟩
      · exact nomatch base
    · split at base
      · obtain rfl := Except.error.inj base
        exact ⟨nofun, nofun⟩
      · split_ifs at base
        obtain rfl := Except.error.inj base
        exact ⟨nofun, nofun⟩
      · obtain rfl := Except.error.inj base
        exact ⟨nofun, nofun⟩

end Quiet

/-- The ways of putting methods together keep a relation between them. -/
structure Kept (R : ∀ {α : Type}, Reader S α → Reader S α → Prop) :
    Prop where
  quiet : ∀ {α : Type} {m : Reader S α}, Quiet m → R m m
  bind : ∀ {α β : Type} {m m' : Reader S α} {rest rest' : α → Reader S β},
    R m m' → (∀ value, R (rest value) (rest' value)) →
      R (m >>= rest) (m' >>= rest')
  attempt : ∀ {α : Type} {m m' : Reader S α}, R m m' →
    R (attempt m) (attempt m')
  status : ∀ {α : Type} {m m' : Reader S α} {status : Failure},
    status.isStatus = true → R m m' →
      R (orReturn status m) (orReturn status m')

namespace Kept

variable {R : ∀ {α : Type}, Reader S α → Reader S α → Prop}
  {vf : EtchValueFactory S} {next next' : Calls S}

theorem ite {α : Type} {condition : Prop} [Decidable condition]
    {m m' n n' : Reader S α} (first : R m m') (second : R n n') :
    R (if condition then m else n) (if condition then m' else n') := by
  split
  · exact first
  · exact second

variable (kept : Kept R)

include kept

theorem pure {α : Type} (value : α) :
    R (Pure.pure value : Reader S α) (Pure.pure value) :=
  kept.quiet (quiet_pure value)

/-! ### Lengths, types and fields -/

section Asking

variable
  (null : ∀ {α : Type}, R (throw .nullPointer : Reader S α)
    (throw .nullPointer))
  (asks : ∀ asker v noneOk, asker ≠ .element true →
    R (next.readValue asker v noneOk) (next'.readValue asker v noneOk))

include null asks

theorem readIntegerValue :
    R (readIntegerValue next) (readIntegerValue next') := by
  refine kept.bind (kept.status (by rfl) (asks _ _ _ nofun)) fun tmp => ?_
  cases tmp with
  | null => exact null
  | int32 value => exact kept.pure _
  | _ => exact kept.quiet (quiet_throw nofun nofun)

theorem readType : R (readType vf next) (readType vf next') := by
  refine kept.bind (kept.status (by rfl) (asks _ _ _ nofun)) fun obj => ?_
  cases obj with
  | null => exact null
  | int32 id =>
      exact kept.bind (kept.quiet (quiet_call _)) fun _ => kept.pure _
  | string name =>
      exact kept.bind (kept.quiet (quiet_call _)) fun _ =>
        kept.quiet (quiet_orNamed _ _)
  | NONE =>
      exact kept.bind (kept.quiet (quiet_call _)) fun _ =>
        kept.quiet (quiet_orNamed _ _)
  | _ => exact kept.quiet (quiet_throw nofun nofun)

theorem readField (type : EtchType) :
    R (readField vf next type) (readField vf next' type) := by
  refine kept.bind (kept.status (by rfl) (asks _ _ _ nofun)) fun obj => ?_
  cases obj with
  | null => exact null
  | int32 id =>
      exact kept.bind (kept.quiet (quiet_call _)) fun _ => kept.pure _
  | string name =>
      exact kept.bind (kept.quiet (quiet_call _)) fun _ =>
        kept.quiet (quiet_orNamed _ _)
  | NONE => exact kept.quiet (quiet_throw nofun nofun)
  | _ => exact kept.quiet (quiet_throw nofun nofun)

end Asking

/-! ### Structs and arrays -/

section Asked

variable
  (type : R (EtchBinaryTaggedDataInput.readType vf next)
    (EtchBinaryTaggedDataInput.readType vf next'))
  (integer : R (EtchBinaryTaggedDataInput.readIntegerValue next)
    (EtchBinaryTaggedDataInput.readIntegerValue next'))

include integer

theorem readLength : R (readLength next) (readLength next') :=
  kept.bind (kept.status (by rfl) integer) fun _ =>
    kept.bind (kept.quiet (quiet_takeLength _)) fun _ => kept.pure _

theorem readBytes : R (readBytes next) (readBytes next') :=
  kept.bind (kept.status (by rfl) (kept.readLength integer)) fun _ =>
    kept.bind (kept.quiet (quiet_get (forward_get _))) fun _ => ite
      (kept.bind (kept.quiet (quiet_throw nofun nofun)) fun _ => kept.pure _)
      (kept.pure _)

include type

theorem startStruct : R (startStruct vf next) (startStruct vf next') :=
  kept.bind (kept.status (by rfl) type) fun _ =>
    kept.bind (kept.status (by rfl) (kept.readLength integer)) fun _ => kept.pure _

theorem startMessage : R (startMessage vf next) (startMessage vf next') := by
  have rest : R (do
      let type ← EtchBinaryTaggedDataInput.orReturn Failure.ETCH_EIO
        (EtchBinaryTaggedDataInput.readType vf next)
      let _length ← EtchBinaryTaggedDataInput.orReturn Failure.ETCH_EIO
        (EtchBinaryTaggedDataInput.readLength next)
      return (⟨type, []⟩ : EtchStructValue)) (do
      let type ← EtchBinaryTaggedDataInput.orReturn Failure.ETCH_EIO
        (EtchBinaryTaggedDataInput.readType vf next')
      let _length ← EtchBinaryTaggedDataInput.orReturn Failure.ETCH_EIO
        (EtchBinaryTaggedDataInput.readLength next')
      return (⟨type, []⟩ : EtchStructValue)) :=
    kept.bind (kept.status (by rfl) type) fun _ =>
      kept.bind (kept.status (by rfl) (kept.readLength integer)) fun _ => kept.pure _
  exact kept.bind (kept.attempt (kept.quiet (quiet_get forward_getByte))) fun _ => ite
    (kept.bind (kept.quiet (quiet_throw nofun nofun)) fun _ => rest) rest

theorem startArray : R (startArray vf next) (startArray vf next') := by
  have typed (code : Int8) : R (readStructType vf next code)
      (readStructType vf next' code) :=
    ite (kept.bind (kept.status (by rfl) type) fun _ => kept.pure _) (kept.pure _)
  have component (code : Int8) (struct : Option EtchType) :
      R (allocNativeArray vf code struct) (allocNativeArray vf code struct) := by
    refine kept.bind ?_ fun componentType => ?_
    · cases struct with
      | none => exact kept.pure _
      | some struct =>
          exact kept.bind (kept.quiet (quiet_call _)) fun _ => kept.pure _
    · cases componentType with
      | none => exact kept.quiet (quiet_throw nofun nofun)
      | some c =>
          exact ite (kept.pure _) (kept.quiet (quiet_throw nofun nofun))
  have rest (code : Int8) (struct : Option EtchType) (dim : Int) : R (do
      let length ← EtchBinaryTaggedDataInput.orReturn .ETCH_ERROR
        (EtchBinaryTaggedDataInput.readLength next)
      let component ← allocNativeArray vf code struct
      return (⟨component, dim.toNat, List.replicate length .null, code, struct,
        0⟩ : EtchArrayValue)) (do
      let length ← EtchBinaryTaggedDataInput.orReturn .ETCH_ERROR
        (EtchBinaryTaggedDataInput.readLength next')
      let component ← allocNativeArray vf code struct
      return (⟨component, dim.toNat, List.replicate length .null, code, struct,
        0⟩ : EtchArrayValue)) :=
    kept.bind (kept.status (by rfl) (kept.readLength integer)) fun _ =>
      kept.bind (component code struct) fun _ => kept.pure _
  exact kept.bind (kept.attempt (kept.quiet (quiet_get forward_getByte))) fun code =>
    kept.bind (typed _) fun struct => kept.bind (kept.status (by rfl) integer)
      fun dim => ite
        (kept.bind (kept.quiet (quiet_throw nofun nofun)) fun _ => rest _ _ _)
        (rest _ _ _)

/-! ### Values -/

variable
  (entries : ∀ sv, R (next.readKeysAndValues sv) (next'.readKeysAndValues sv))
  (elements : ∀ ev av, R (next.readValues ev av) (next'.readValues ev av))

include entries elements

theorem readPayload (code : Int8) (v : EtchValidator) (noneOk : Bool) :
    R (readPayload vf next code v noneOk)
      (readPayload vf next' code v noneOk) := by
  have valid (value : EtchObject) :
      R (throwing (validateValue v value)) (throwing (validateValue v value)) :=
    kept.quiet (quiet_validateValue v value)
  have number {α : Type}
      {op : EtchFlexBuffer → Option (α × EtchFlexBuffer)}
      {value : α → EtchObject} (forward : Forward op) : R (do
        let tmp ← EtchBinaryTaggedDataInput.orReturn .ETCH_ERROR (get op)
        throwing (validateValue v (value tmp))) (do
        let tmp ← EtchBinaryTaggedDataInput.orReturn .ETCH_ERROR (get op)
        throwing (validateValue v (value tmp))) :=
    kept.bind (kept.status (by rfl) (kept.quiet (quiet_get forward))) fun _ => valid _
  have eight := forward_getNumber 8
  unfold EtchBinaryTaggedDataInput.readPayload
  refine ite (valid _) (ite (ite (kept.pure _) (valid _)) (ite (valid _)
    (ite (valid _) (ite (number forward_getByte)
      (ite (number (forward_map (forward_getNumber 2) _))
        (ite (number (forward_map forward_getInteger _))
          (ite (number (forward_map eight _))
            (ite (number (forward_map forward_getInteger _))
              (ite (number (forward_map eight _)) (ite ?_ (ite ?_
                (ite (valid _) (ite ?_ (ite ?_ (ite (valid _)
                  (kept.quiet (quiet_throw nofun nofun)))))))))))))))))
  · exact kept.bind (kept.status (by rfl) (kept.readBytes integer)) fun _ => valid _
  · refine kept.bind (kept.status (by rfl) ?_) fun _ =>
      ite (kept.pure _) (kept.quiet (quiet_throw nofun nofun))
    refine kept.bind (kept.startArray type integer) fun av => ?_
    cases v.getElementValidator with
    | none => exact kept.quiet (quiet_throw nofun nofun)
    | some ev => exact elements ev av
  · exact kept.bind (kept.status (by rfl) (kept.readBytes integer)) fun _ => valid _
  · refine kept.bind (kept.status (by rfl) ?_) fun sv =>
      kept.bind (kept.quiet (quiet_call _)) fun obj => ?_
    · exact kept.bind (kept.startStruct type integer) entries
    · cases obj with
      | none => exact kept.quiet (quiet_throw nofun nofun)
      | some obj => exact valid obj

omit type integer elements in
theorem readKeysAndValues
    (field : ∀ type, R (EtchBinaryTaggedDataInput.readField vf next type)
      (EtchBinaryTaggedDataInput.readField vf next' type))
    (entry : ∀ v, R (next.readValue .entry v false)
      (next'.readValue .entry v false))
    (ignored : ∀ v, R (next.readValue .ignored v false)
      (next'.readValue .ignored v false)) (sv : EtchStructValue) :
    R (readKeysAndValues vf next sv) (readKeysAndValues vf next' sv) := by
  refine kept.bind (kept.attempt (field _)) fun key => ?_
  cases key with
  | none => exact kept.pure _
  | some key =>
      refine kept.bind (kept.quiet (quiet_call _)) fun v => ?_
      cases v with
      | some v =>
          exact kept.bind (entry v) fun obj =>
            kept.bind (kept.quiet (quiet_put vf sv key obj)) entries
      | none =>
          exact kept.bind (kept.attempt (ignored _)) fun _ => entries sv

omit type integer entries in
theorem readValues (element : ∀ takesNull v, R
      (next.readValue (.element takesNull) v true)
      (next'.readValue (.element takesNull) v true))
    (ev : EtchValidator) (av : EtchArrayValue) :
    R (readValues next ev av) (readValues next' ev av) := by
  refine kept.bind (kept.attempt (element _ _)) fun value => ?_
  have added (value : EtchObject) : R (do
      let av ← throwing (av.add value)
      next.readValues ev av) (do
      let av ← throwing (av.add value)
      next'.readValues ev av) :=
    kept.bind (kept.quiet (quiet_add av value)) fun av => elements ev av
  cases value.getD .null with
  | NONE => exact kept.pure _
  | _ => exact added _

end Asked

end Kept

section Code

variable {vf : EtchValueFactory S} {next : Calls S} {asker : Asker}
  {v : EtchValidator} {noneOk : Bool} {input : EtchInput S}

/-- At the end of the buffer nothing is read. -/
theorem readValue_end (none : input.mBuffer.unread = []) :
    readValue vf next asker v noneOk input = .error .ETCH_ERROR
      { input with asks := ⟨asker, []⟩ :: input.asks } := by
  refine (bind_ok rfl).trans (bind_error ?_)
  unfold orReturn get
  dsimp only
  rw [EtchFlexBuffer.getByte_nil none, none]
  rfl

theorem readValue_cons {byte : UInt8} {rest : List UInt8}
    (unread : input.mBuffer.unread = byte :: rest) :
    ∃ buffer : EtchFlexBuffer, buffer.unread = rest ∧
      readValue vf next asker v noneOk input =
        readPayload vf next byte.toInt8 v noneOk
          { input with
            mBuffer := buffer
            asks := ⟨asker, byte :: rest⟩ :: input.asks } := by
  obtain ⟨buffer, got, left⟩ := EtchFlexBuffer.getByte_cons unread
  refine ⟨buffer, left, (bind_ok rfl).trans (bind_ok ?_)⟩
  unfold orReturn get
  dsimp only
  rw [got, unread]

end Code

/-! ## Onward -/

/-- A method forgets no call of `readValue`, and puts no byte back. -/
structure Onward {α : Type} (m : Reader S α) : Prop where
  asks : ∀ input, input.asks ⊆ (final (m input)).asks
  avail : ∀ input, (final (m input)).avail ≤ input.avail

theorem Onward.bind {α β : Type} {m : Reader S α} {rest : α → Reader S β}
    (first : Onward m) (second : ∀ value, Onward (rest value)) :
    Onward (m >>= rest) := by
  constructor
  · intro input
    have before := first.asks input
    cases done : m input with
    | ok value after =>
        rw [done] at before
        rw [bind_ok done]
        exact List.Subset.trans before ((second value).asks after)
    | error failure after =>
        rw [done] at before
        rw [bind_error done]
        exact before
  · intro input
    have before := first.avail input
    cases done : m input with
    | ok value after =>
        rw [done] at before
        rw [bind_ok done]
        exact ((second value).avail after).trans before
    | error failure after =>
        rw [done] at before
        rw [bind_error done]
        exact before

theorem final_attempt {α : Type} (m : Reader S α) (input : EtchInput S) :
    final (attempt m input) = final (m input) := by
  unfold attempt
  cases m input with
  | ok value after => rfl
  | error failure after =>
      dsimp only
      split <;> rfl

theorem final_orReturn {α : Type} (status : Failure) (m : Reader S α)
    (input : EtchInput S) :
    final (orReturn status m input) = final (m input) := by
  unfold orReturn
  cases m input <;> rfl

theorem Quiet.onward {α : Type} {m : Reader S α} (quiet : Quiet m) :
    Onward m := by
  refine ⟨fun input => ?_, quiet.avail⟩
  rw [quiet.asks input]
  exact fun _ inside => inside

theorem Onward.attempt {α : Type} {m : Reader S α} (onward : Onward m) :
    Onward (attempt m) := by
  constructor <;> intro input <;> rw [final_attempt]
  · exact onward.asks input
  · exact onward.avail input

theorem Onward.orReturn {α : Type} {m : Reader S α} {status : Failure}
    (onward : Onward m) : Onward (orReturn status m) := by
  constructor <;> intro input <;> rw [final_orReturn]
  · exact onward.asks input
  · exact onward.avail input

theorem onward_throw {α : Type} (failure : Failure) :
    Onward (throw failure : Reader S α) :=
  ⟨fun _ _ inside => inside, fun _ => Nat.le_refl _⟩

theorem onward_note (asker : Asker) :
    Onward (note asker : Reader S Unit) :=
  ⟨fun _ _ inside => .tail _ inside, fun _ => Nat.le_refl _⟩

theorem kept_onward :
    Kept (fun {α : Type} (m _ : Reader S α) => Onward m) :=
  ⟨Quiet.onward, Onward.bind, Onward.attempt, fun _ => Onward.orReturn⟩

/-- All the methods that are called go onward. -/
structure CallsOnward (next : Calls S) : Prop where
  readValue : ∀ asker v noneOk, Onward (next.readValue asker v noneOk)
  readKeysAndValues : ∀ sv, Onward (next.readKeysAndValues sv)
  readValues : ∀ ev av, Onward (next.readValues ev av)

theorem callsOnward (vf : EtchValueFactory S) (fuel : Nat) :
    CallsOnward (calls vf fuel) := by
  induction fuel with
  | zero =>
      exact ⟨fun _ _ _ => onward_throw _, fun _ => onward_throw _, fun _ _ => onward_throw _⟩
  | succ fuel ih =>
      have kept := @kept_onward S
      have type := @Kept.readType _ _ vf (calls vf fuel) (calls vf fuel)
        kept (onward_throw _)
        fun asker v noneOk _ => ih.readValue asker v noneOk
      have field := @Kept.readField _ _ vf (calls vf fuel) (calls vf fuel)
        kept (onward_throw _)
        fun asker v noneOk _ => ih.readValue asker v noneOk
      have integer := @Kept.readIntegerValue _ _ (calls vf fuel)
        (calls vf fuel) kept (onward_throw _)
        fun asker v noneOk _ => ih.readValue asker v noneOk
      constructor
      · intro asker v noneOk
        refine (onward_note asker).bind fun _ => ?_
        exact (quiet_get forward_getByte).onward.orReturn.bind fun code =>
          @Kept.readPayload _ _ vf _ (calls vf fuel) kept type integer
            ih.readKeysAndValues ih.readValues code v noneOk
      · exact @Kept.readKeysAndValues _ _ vf _ (calls vf fuel) kept
          ih.readKeysAndValues field (fun v => ih.readValue _ v _)
          (fun v => ih.readValue _ v _)
      · exact @Kept.readValues _ _ _ (calls vf fuel) kept ih.readValues
          fun _ v => ih.readValue _ v _

/-! ## More fuel -/

/-- One method does what the other does, or is cut off on its way there. -/
def Continues {α : Type} (m m' : Reader S α) : Prop :=
  ∀ input, m input = m' input ∨
    ∃ after, m input = .error .outOfFuel after ∧
      after.asks ⊆ (final (m' input)).asks

theorem Continues.trans {α : Type} {m m' m'' : Reader S α}
    (first : Continues m m') (second : Continues m' m'') :
    Continues m m'' := by
  intro input
  rcases first input with same | ⟨after, cut, kept⟩
  · rw [same]
    exact second input
  · refine .inr ⟨after, cut, ?_⟩
    rcases second input with same' | ⟨after', cut', kept'⟩
    · rwa [← same']
    · rw [cut'] at kept
      exact List.Subset.trans kept kept'

theorem Continues.bind {α β : Type} {m m' : Reader S α}
    {rest rest' : α → Reader S β} (first : Continues m m')
    (onward : ∀ value, Onward (rest' value))
    (second : ∀ value, Continues (rest value) (rest' value)) :
    Continues (m >>= rest) (m' >>= rest') := by
  intro input
  rcases first input with same | ⟨after, cut, kept⟩
  · cases done : m' input with
    | ok value after =>
        rw [bind_ok (same.trans done), bind_ok done]
        exact second value after
    | error failure after =>
        rw [bind_error (same.trans done), bind_error done]
        exact .inl rfl
  · refine .inr ⟨after, bind_error cut, ?_⟩
    cases done : m' input with
    | ok value middle =>
        rw [done] at kept
        rw [bind_ok done]
        exact List.Subset.trans kept ((onward value).asks middle)
    | error failure middle =>
        rw [done] at kept
        rw [bind_error done]
        exact kept

theorem Continues.attempt {α : Type} {m m' : Reader S α}
    (continues : Continues m m') : Continues (attempt m) (attempt m') := by
  intro input
  unfold EtchBinaryTaggedDataInput.attempt
  rcases continues input with same | ⟨after, cut, kept⟩
  · rw [same]
    exact .inl rfl
  · rw [cut]
    refine .inr ⟨after, rfl, ?_⟩
    rwa [← final_attempt] at kept

theorem Continues.orReturn {α : Type} {m m' : Reader S α}
    {status : Failure} (continues : Continues m m') :
    Continues (orReturn status m) (orReturn status m') := by
  intro input
  unfold EtchBinaryTaggedDataInput.orReturn
  rcases continues input with same | ⟨after, cut, kept⟩
  · rw [same]
    exact .inl rfl
  · rw [cut]
    refine .inr ⟨after, rfl, ?_⟩
    rwa [← final_orReturn status] at kept

theorem kept_continues :
    Kept (fun {α : Type} (m m' : Reader S α) =>
      Onward m' ∧ Continues m m') where
  quiet quiet := ⟨quiet.onward, fun _ => .inl rfl⟩
  bind first second :=
    ⟨first.1.bind fun value => (second value).1,
      first.2.bind (fun value => (second value).1)
        fun value => (second value).2⟩
  attempt related := ⟨related.1.attempt, related.2.attempt⟩
  status _ related := ⟨related.1.orReturn, related.2.orReturn⟩

/-- Each of the methods that are called continues another one. -/
structure CallsContinue (next next' : Calls S) : Prop where
  readValue : ∀ asker v noneOk,
    Onward (next'.readValue asker v noneOk) ∧
      Continues (next.readValue asker v noneOk)
        (next'.readValue asker v noneOk)
  readKeysAndValues : ∀ sv, Onward (next'.readKeysAndValues sv) ∧
    Continues (next.readKeysAndValues sv) (next'.readKeysAndValues sv)
  readValues : ∀ ev av, Onward (next'.readValues ev av) ∧
    Continues (next.readValues ev av) (next'.readValues ev av)

theorem callsContinue (vf : EtchValueFactory S) (fuel : Nat) :
    CallsContinue (calls vf fuel) (calls vf (fuel + 1)) := by
  induction fuel with
  | zero =>
      have onward := callsOnward vf 1
      have cut {α : Type} {m : Reader S α} (onward : Onward m) :
          Onward m ∧ Continues (throw .outOfFuel) m :=
        ⟨onward, fun input => .inr ⟨input, rfl, onward.asks input⟩⟩
      exact ⟨fun _ _ _ => cut (onward.readValue _ _ _),
        fun _ => cut (onward.readKeysAndValues _),
        fun _ _ => cut (onward.readValues _ _)⟩
  | succ fuel ih =>
      have kept := @kept_continues S
      have null {α : Type} : Onward (throw .nullPointer : Reader S α) ∧
          Continues (throw .nullPointer : Reader S α) (throw .nullPointer) :=
        ⟨onward_throw _, fun _ => .inl rfl⟩
      have type := @Kept.readType _ _ vf _ _ kept null
        fun asker v noneOk _ => ih.readValue asker v noneOk
      have field := @Kept.readField _ _ vf _ _ kept null
        fun asker v noneOk _ => ih.readValue asker v noneOk
      have integer := @Kept.readIntegerValue _ _ _ _ kept null
        fun asker v noneOk _ => ih.readValue asker v noneOk
      constructor
      · intro asker v noneOk
        have noted : Onward (note asker : Reader S Unit) ∧
            Continues (note asker : Reader S Unit) (note asker) :=
          ⟨onward_note asker, fun _ => .inl rfl⟩
        exact kept.bind noted fun _ =>
          kept.bind (kept.status (by rfl) (kept.quiet (quiet_get forward_getByte))) fun code =>
            kept.readPayload type integer ih.readKeysAndValues
              ih.readValues code v noneOk
      · exact kept.readKeysAndValues ih.readKeysAndValues field
          (fun v => ih.readValue _ v _) (fun v => ih.readValue _ v _)
      · exact kept.readValues ih.readValues fun _ v => ih.readValue _ v _

theorem message_continues (vf : EtchValueFactory S) {fuel fuel' : Nat}
    (less : fuel ≤ fuel') :
    Continues (message vf fuel) (message vf fuel') := by
  induction less with
  | refl => exact fun _ => .inl rfl
  | @step fuel' less ih =>
      have kept := @kept_continues S
      have step := callsContinue vf fuel'
      have null {α : Type} : Onward (throw .nullPointer : Reader S α) ∧
          Continues (throw .nullPointer : Reader S α) (throw .nullPointer) :=
        ⟨onward_throw _, fun _ => .inl rfl⟩
      have type := @Kept.readType _ _ vf _ _ kept null
        fun asker v noneOk _ => step.readValue asker v noneOk
      have integer := @Kept.readIntegerValue _ _ _ _ kept null
        fun asker v noneOk _ => step.readValue asker v noneOk
      refine ih.trans ?_
      exact (kept.bind (kept.startMessage type integer)
        step.readKeysAndValues).2

end Etch.Cpp.EtchBinaryTaggedDataInput
