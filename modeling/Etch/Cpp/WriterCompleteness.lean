import Etch.Cpp.BinaryTaggedDataOutput

/-!
# When the C++ writer has written all

A message is the puts that a list takes from the writer.  On a buffer the
writer makes these puts, one after the other, and ends with an error where a
put is refused whose status it looks at.  A put whose status it drops leaves
the buffer as it is, and the writer goes on.
-/

namespace Etch.Cpp

open Etch.Library.Stateful

namespace EtchFlexBuffer

/-! ## What a put does -/

theorem expandBuffer_represents {fb next : EtchFlexBuffer} {array : Growable}
    (represents : fb.Represents array) {numBytes : Nat}
    (expanded : fb.expandBuffer numBytes = some next) :
    next.Represents array := by
  unfold expandBuffer at expanded
  dsimp only at expanded
  split_ifs at expanded
  obtain rfl := Option.some.inj expanded
  refine ⟨represents.index, represents.length, fun i => ?_⟩
  rw [← represents.memory i]
  rcases Nat.lt_or_ge i fb.mBuffer.length with inside | outside
  · exact List.getD_append _ _ _ _ inside
  · dsimp only
    rw [List.getD_append_right _ _ _ _ outside,
      List.getD_eq_default _ _ outside]
    exact List.getElem?_getD_replicate_default_eq _ _ _

/-- Bytes are written whole, or refused where they have no room. -/
theorem store_spec {fb next : EtchFlexBuffer} {array : Growable}
    (represents : fb.Represents array) {asked : Nat} {bytes : List UInt8}
    {status : Status} (stored : fb.store asked bytes = some (status, next)) :
    (status = .ETCH_OK → next.Represents (array.write bytes)) ∧
      (status ≠ .ETCH_OK → next = fb ∧ fb.mSize < fb.mIndex + bytes.length) := by
  have copies {fb : EtchFlexBuffer} (represents : fb.Represents array)
      (copied : (fb.copy bytes).map (fun next => (Status.ETCH_OK, next)) =
        some (status, next)) :
      status = .ETCH_OK ∧ next.Represents (array.write bytes) := by
    obtain ⟨next', copy, same⟩ := Option.map_eq_some_iff.mp copied
    obtain ⟨rfl, rfl⟩ := Prod.mk.inj same
    have inside : fb.mIndex + bytes.length ≤ fb.mSize := by
      by_contra outside
      rw [EtchFlexBuffer.copy, dif_neg outside] at copy
      cases copy
    obtain ⟨_, copy', represents'⟩ := copy_represents represents inside
    obtain rfl := Option.some.inj (copy.symm.trans copy')
    exact ⟨rfl, represents'⟩
  have order := fb.index_le.trans fb.length_le
  unfold store at stored
  split at stored
  · rename_i short
    split at stored
    · obtain ⟨rfl, rfl⟩ := Prod.mk.inj (Option.some.inj stored)
      exact ⟨by rintro ⟨⟩, fun _ => ⟨rfl, by unfold mSize at short ⊢; omega⟩⟩
    · rename_i expanded
      obtain ⟨rfl, written⟩ :=
        copies (expandBuffer_represents represents expanded) stored
      exact ⟨fun _ => written, fun refused => absurd rfl refused⟩
  · obtain ⟨rfl, written⟩ := copies represents stored
    exact ⟨fun _ => written, fun refused => absurd rfl refused⟩

/-- A put is made, with its bytes; or it has none, or it is refused. -/
theorem run_spec {fb next : EtchFlexBuffer} {array : Growable}
    (represents : fb.Represents array) {call : Call} (is : call.IsPut)
    {status : Status} (ran : call.run fb = some (status, next)) :
    (status = .ETCH_OK →
      next.Represents (array.write (call.written.getD []))) ∧
      (status ≠ .ETCH_OK → next = fb ∧ (call.written.getD [] ≠ [] →
        fb.mSize < fb.mIndex + (call.written.getD []).length)) := by
  have store {asked : Nat} {bytes : List UInt8}
      (stored : fb.store asked bytes = some (status, next)) :
      (status = .ETCH_OK → next.Represents (array.write bytes)) ∧
        (status ≠ .ETCH_OK → next = fb ∧ (bytes ≠ [] →
          fb.mSize < fb.mIndex + bytes.length)) := by
    obtain ⟨written, refused⟩ := store_spec represents stored
    exact ⟨written, fun not => ⟨(refused not).1, fun _ => (refused not).2⟩⟩
  cases call with
  | putBytes bytes =>
      change fb.putBytes bytes = _ at ran
      unfold putBytes at ran
      split_ifs at ran with none
      · obtain ⟨rfl, rfl⟩ := Prod.mk.inj (Option.some.inj ran)
        exact ⟨nofun, fun _ => ⟨rfl, fun some =>
          absurd (List.length_eq_zero_iff.mp none) some⟩⟩
      · exact store ran
  | putByte value => exact store ran
  | putShort value => exact store ran
  | putInt value => exact store ran
  | putLong value => exact store ran
  | put buffer => exact is.elim
  | putFrom buffer numBytes => exact is.elim
  | setIndex index => exact is.elim
  | setLength length => exact is.elim

/-! ## Puts one after the other -/

/-- The buffer after the puts, none where one is refused whose status is
looked at. -/
def replay (fb : EtchFlexBuffer) : List Put → Option EtchFlexBuffer
  | [] => some fb
  | put :: puts =>
      match put.call.run fb with
      | none => none
      | some (status, next) =>
          if put.looksAt = true ∧ status ≠ .ETCH_OK then none
          else next.replay puts

/-- Every put that has bytes is made. -/
def Stores (fb : EtchFlexBuffer) : List Put → Prop
  | [] => True
  | put :: puts =>
      ∃ status next, put.call.run fb = some (status, next) ∧
        (put.bytes ≠ [] → status = .ETCH_OK) ∧ next.Stores puts

/-- The bytes of the puts. -/
def encoding (puts : List Put) : List UInt8 :=
  puts.flatMap Put.bytes

theorem replay_append (fb : EtchFlexBuffer) (puts more : List Put) :
    fb.replay (puts ++ more) =
      (fb.replay puts).bind fun next => next.replay more := by
  induction puts generalizing fb with
  | nil => rfl
  | cons put puts ih =>
      rw [List.cons_append, replay, replay]
      cases put.call.run fb with
      | none => rfl
      | some ran =>
          dsimp only
          split_ifs
          · rfl
          · exact ih _

theorem Growable.write_nil (array : Growable)
    (order : array.index ≤ array.length) : array.write [] = array := by
  cases array with
  | mk memory index length =>
      have none (i : Nat) : ¬(index ≤ i ∧ i < index + 0) := by omega
      simp only [Growable.write, List.length_nil, Nat.add_zero,
        Nat.max_eq_left order, Growable.mk.injEq, and_true]
      funext i
      exact if_neg (none i)

theorem Growable.write_append (array : Growable) (first second : List UInt8) :
    (array.write first).write second = array.write (first ++ second) := by
  unfold Growable.write
  rw [List.length_append, ← Nat.add_assoc]
  congr 1
  · funext i
    dsimp only
    by_cases before : i < array.index + first.length
    · rw [if_neg (by omega)]
      by_cases inside : array.index ≤ i
      · rw [if_pos ⟨inside, before⟩, if_pos (by omega),
          List.getD_append _ _ _ _ (by omega)]
      · rw [if_neg (by omega), if_neg (by omega)]
    · by_cases within : i < array.index + first.length + second.length
      · rw [if_pos (by omega), if_pos (by omega),
          List.getD_append_right _ _ _ _ (by omega), Nat.sub_sub]
      · rw [if_neg (by omega), if_neg (by omega), if_neg (by omega)]
  · dsimp only
    omega

/-- Where nothing is refused, all is written. -/
theorem replay_of_stores {fb next : EtchFlexBuffer} {array : Growable}
    (represents : fb.Represents array) {puts : List Put}
    (stores : fb.Stores puts)
    (replayed : fb.replay puts = some next) :
    next.Represents (array.write (encoding puts)) := by
  induction puts generalizing fb array with
  | nil =>
      obtain rfl := Option.some.inj replayed
      have order : array.index ≤ array.length := by
        rw [← represents.index, ← represents.length]
        exact fb.index_le
      rwa [encoding, List.flatMap_nil, array.write_nil order]
  | cons put puts ih =>
      obtain ⟨status, middle, ran, stored, rest⟩ := stores
      obtain ⟨written, refused⟩ := run_spec represents put.isPut ran
      rw [replay, ran] at replayed
      dsimp only at replayed
      split_ifs at replayed
      have represents' : middle.Represents (array.write put.bytes) := by
        by_cases ok : status = .ETCH_OK
        · exact written ok
        · have none : put.bytes = [] := by
            by_contra some
            exact ok (stored some)
          have order : array.index ≤ array.length := by
            rw [← represents.index, ← represents.length]
            exact fb.index_le
          rw [none, array.write_nil order, (refused ok).1]
          exact represents
      have after := ih represents' rest replayed
      rwa [array.write_append] at after

/-- How far the puts have come. -/
structure Reaches (fb next : EtchFlexBuffer) (total : Nat) : Prop where
  index_le : next.mIndex ≤ fb.mIndex + total
  le_index : fb.mIndex ≤ next.mIndex
  length : next.mLength = max fb.mLength next.mIndex

/-- Where something is refused, the buffer ends before the message does. -/
theorem reaches_of_replay {fb next : EtchFlexBuffer} {puts : List Put}
    (replayed : fb.replay puts = some next) :
    fb.Reaches next (encoding puts).length ∧
      (¬fb.Stores puts →
        next.mLength < fb.mIndex + (encoding puts).length) := by
  induction puts generalizing fb with
  | nil =>
      obtain rfl := Option.some.inj replayed
      exact ⟨⟨Nat.le_add_right _ _, Nat.le_refl _,
        (Nat.max_eq_left fb.index_le).symm⟩, fun not => absurd trivial not⟩
  | cons put puts ih =>
      rw [replay] at replayed
      cases ran : put.call.run fb with
      | none =>
          rw [ran] at replayed
          exact nomatch replayed
      | some result =>
          obtain ⟨status, middle⟩ := result
          rw [ran] at replayed
          dsimp only at replayed
          split_ifs at replayed
          obtain ⟨rest, short⟩ := ih replayed
          obtain ⟨written, refused⟩ :=
            run_spec fb.represents_growable put.isPut ran
          have total : (encoding (put :: puts)).length =
              put.bytes.length + (encoding puts).length := by
            rw [encoding, List.flatMap_cons, List.length_append]
            rfl
          obtain ⟨index_le, le_index, length⟩ := rest
          by_cases ok : status = .ETCH_OK
          · have represents := written ok
            have index' : middle.mIndex = fb.mIndex + put.bytes.length :=
              represents.index
            have length' : middle.mLength =
                max fb.mLength (fb.mIndex + put.bytes.length) :=
              represents.length
            refine ⟨⟨by omega, by omega, by omega⟩, fun not => ?_⟩
            have := short fun stores =>
              not ⟨status, middle, ran, fun _ => ok, stores⟩
            omega
          · obtain ⟨rfl, behind⟩ := refused ok
            refine ⟨⟨by omega, le_index, length⟩, fun not => ?_⟩
            by_cases none : put.bytes = []
            · have := short fun stores =>
                not ⟨status, middle, ran, fun some => absurd none some, stores⟩
              omega
            · have behind := behind none
              have memory := middle.length_le
              have some := List.length_pos_iff.mpr none
              have bytes : (put.call.written.getD []).length =
                  put.bytes.length := rfl
              unfold mSize at behind
              omega

/-- All is written if and only if nothing is refused. -/
theorem replay_complete_iff {fb next : EtchFlexBuffer} {puts : List Put}
    (replayed : fb.replay puts = some next) :
    next.data = (fb.growable.write (encoding puts)).contents ↔
      fb.Stores puts := by
  constructor
  · intro complete
    by_contra not
    have short := (reaches_of_replay replayed).2 not
    have length := congrArg List.length complete
    rw [length_data, Growable.contents, List.length_map,
      List.length_range] at length
    have whole : (fb.growable.write (encoding puts)).length =
        max fb.mLength (fb.mIndex + (encoding puts).length) := rfl
    omega
  · intro stores
    exact (replay_of_stores fb.represents_growable stores replayed).contents

end EtchFlexBuffer

namespace EtchBinaryTaggedDataOutput

open EtchFlexBuffer (encoding)

variable {S α β : Type}

/-! ## A list and a buffer -/

/-- The run fails. -/
def Fails {B : Type} (result : EStateM.Result Failure (EtchOutput B S) α) :
    Prop :=
  ∃ failure after, result = .error failure after

/-- What a run on a buffer does, next to a run on the list of puts. -/
def Matches (puts : List Put) (fb : EtchFlexBuffer)
    (result' : EStateM.Result Failure (EtchOutput EtchFlexBuffer S) α) :
    EStateM.Result Failure (EtchOutput (List Put) S) α → Prop
  | .ok value after =>
      ∃ more, after.mBuffer = puts ++ more ∧
        match fb.replay more with
        | some next => result' = .ok value ⟨next, after.factory⟩
        | none => Fails result'
  | .error _ _ => Fails result'

/-- On a buffer, a method makes the puts that it makes on a list, or fails. -/
def Follows (m : Writer (List Put) S α) (m' : Writer EtchFlexBuffer S α) :
    Prop :=
  ∀ puts factory fb,
    Matches puts fb (m' ⟨fb, factory⟩) (m ⟨puts, factory⟩)

theorem fails_bind {B : Type} {m : Writer B S α} {rest : α → Writer B S β}
    {output : EtchOutput B S} (fails : Fails (m output)) :
    Fails ((m >>= rest) output) := by
  obtain ⟨failure, after, failed⟩ := fails
  exact ⟨failure, after, bind_error failed⟩

theorem fails_orError {B : Type} {m : Writer B S α} {output : EtchOutput B S}
    (fails : Fails (m output)) : Fails (orError m output) := by
  obtain ⟨failure, after, failed⟩ := fails
  unfold orError
  rw [failed]
  exact ⟨_, _, rfl⟩

namespace Follows

variable {m : Writer (List Put) S α} {m' : Writer EtchFlexBuffer S α}

theorem pure (value : α) :
    Follows (Pure.pure value : Writer (List Put) S α) (Pure.pure value) :=
  fun puts _ _ => ⟨[], (List.append_nil puts).symm, rfl⟩

theorem throw (failure : Failure) :
    Follows (MonadExcept.throw failure : Writer (List Put) S α)
      (MonadExcept.throw failure) :=
  fun _ _ _ => ⟨_, _, rfl⟩

theorem bind {rest : α → Writer (List Put) S β}
    {rest' : α → Writer EtchFlexBuffer S β} (first : Follows m m')
    (second : ∀ value, Follows (rest value) (rest' value)) :
    Follows (m >>= rest) (m' >>= rest') := by
  intro puts factory fb
  have first := first puts factory fb
  cases done : m ⟨puts, factory⟩ with
  | error failure after =>
      rw [done] at first
      rw [bind_error done]
      exact fails_bind first
  | ok value after =>
      rw [done] at first
      rw [bind_ok done]
      obtain ⟨more, grown, followed⟩ := first
      cases replayed : fb.replay more with
      | none =>
          rw [replayed] at followed
          have fails := @fails_bind _ _ β _ _ rest' _ followed
          have second := second value after.mBuffer after.factory fb
          cases done' : rest value after with
          | error failure after => exact fails
          | ok result after' =>
              rw [done'] at second
              obtain ⟨more', grown', _⟩ := second
              refine ⟨more ++ more', ?_, ?_⟩
              · rw [grown', grown, List.append_assoc]
              · rw [EtchFlexBuffer.replay_append, replayed]
                exact fails
      | some next =>
          rw [replayed] at followed
          have second := second value after.mBuffer after.factory next
          rw [bind_ok followed]
          cases done' : rest value after with
          | error failure after =>
              rw [done'] at second
              exact second
          | ok result after' =>
              rw [done'] at second
              obtain ⟨more', grown', followed'⟩ := second
              refine ⟨more ++ more', ?_, ?_⟩
              · rw [grown', grown, List.append_assoc]
              · rw [EtchFlexBuffer.replay_append, replayed]
                exact followed'

theorem orError (follows : Follows m m') :
    Follows (orError m) (orError m') := by
  intro puts factory fb
  have follows := follows puts factory fb
  unfold EtchBinaryTaggedDataOutput.orError
  cases done : m ⟨puts, factory⟩ with
  | error failure after =>
      rw [done] at follows
      exact fails_orError follows
  | ok value after =>
      rw [done] at follows
      obtain ⟨more, grown, followed⟩ := follows
      refine ⟨more, grown, ?_⟩
      cases replayed : fb.replay more with
      | none =>
          rw [replayed] at followed
          exact fails_orError followed
      | some next =>
          rw [replayed] at followed
          dsimp only
          rw [followed]

theorem call (lookup : Lookup S α) :
    Follows (call lookup) (call lookup) :=
  fun puts _ _ => ⟨[], (List.append_nil puts).symm, rfl⟩

theorem ite {condition : Prop} [Decidable condition]
    {n : Writer (List Put) S α} {n' : Writer EtchFlexBuffer S α}
    (first : Follows m m') (second : Follows n n') :
    Follows (if condition then m else n)
      (if condition then m' else n') := by
  split
  · exact first
  · exact second

theorem dropping (call : EtchFlexBuffer.Call) (is : call.IsPut) :
    @Follows S Unit (dropping Put.list call is)
      (dropping EtchFlexBuffer.sink call is) := by
  refine fun puts factory fb => ⟨[⟨call, is, false⟩], rfl, ?_⟩
  rw [EtchFlexBuffer.replay]
  unfold EtchBinaryTaggedDataOutput.dropping EtchFlexBuffer.sink
  dsimp only
  cases call.run fb with
  | none => exact ⟨_, _, rfl⟩
  | some ran =>
      dsimp only
      rw [if_neg (by simp)]
      rfl

theorem returning (call : EtchFlexBuffer.Call) (is : call.IsPut) :
    @Follows S Unit (returning Put.list call is)
      (returning EtchFlexBuffer.sink call is) := by
  refine fun puts factory fb => ⟨[⟨call, is, true⟩], rfl, ?_⟩
  rw [EtchFlexBuffer.replay]
  unfold EtchBinaryTaggedDataOutput.returning EtchFlexBuffer.sink
  dsimp only
  cases call.run fb with
  | none => exact ⟨_, _, rfl⟩
  | some ran =>
      obtain ⟨status, next⟩ := ran
      cases status with
      | ETCH_OK => rfl
      | _ => exact ⟨_, _, rfl⟩

end Follows

section Methods

variable {vf : EtchValueFactory S} {mStringTypeAndField : Bool}
  {next : Write (List Put) S} {next' : Write EtchFlexBuffer S}
  (value : ∀ v object, Follows (next v object) (next' v object))

include value

theorem follows_writeType (type : EtchType) :
    Follows (writeType mStringTypeAndField next type)
      (writeType mStringTypeAndField next' type) :=
  .ite (value _ _) (value _ _)

theorem follows_writeBytes (bytes : List UInt8) :
    Follows (writeBytes Put.list next bytes)
      (writeBytes EtchFlexBuffer.sink next' bytes) :=
  (value _ _).orError.bind fun _ => .dropping _ _

theorem follows_startStruct (sv : EtchStructValue) :
    Follows (startStruct mStringTypeAndField next sv)
      (startStruct mStringTypeAndField next' sv) :=
  (follows_writeType value _).orError.bind fun _ => (value _ _).orError

theorem follows_writeKeysAndValues (type : EtchType)
    (entries : List (EtchField × EtchObject)) :
    Follows (writeKeysAndValues vf mStringTypeAndField next type entries)
      (writeKeysAndValues vf mStringTypeAndField next' type entries) := by
  induction entries with
  | nil => exact .pure ()
  | cons entry entries ih =>
      refine (follows_writeType value _).orError.bind fun _ =>
        (Follows.call _).bind fun v => ?_
      cases v with
      | none => exact .throw _
      | some v => exact (value _ _).orError.bind fun _ => ih

theorem follows_writeStruct (sv : EtchStructValue) :
    Follows (writeStruct vf mStringTypeAndField next sv)
      (writeStruct vf mStringTypeAndField next' sv) :=
  (follows_startStruct value sv).orError.bind fun _ =>
    (follows_writeKeysAndValues value _ _).orError.bind fun _ =>
      (value _ _).orError

theorem follows_startArray (array : EtchArrayValue) :
    Follows (startArray mStringTypeAndField Put.list next array)
      (startArray mStringTypeAndField EtchFlexBuffer.sink next' array) := by
  have rest : Follows (do
      orError (writeIntValue next array.mDim)
      orError (writeIntValue next array.slots.length)) (do
      orError (writeIntValue next' array.mDim)
      orError (writeIntValue next' array.slots.length)) :=
    (value _ _).orError.bind fun _ => (value _ _).orError
  refine (Follows.dropping _ _).bind fun _ => .ite ?_ rest
  cases array.mCustomStructType with
  | none => exact (Follows.throw _).bind fun _ => rest
  | some type =>
      exact (follows_writeType value type).orError.bind fun _ => rest

theorem follows_writeElements (boxed : Bool) (av : EtchArrayValue)
    (ev : EtchValidator) (elements : List EtchObject) :
    Follows (writeElements next boxed av ev elements)
      (writeElements next' boxed av ev elements) := by
  induction elements with
  | nil => exact .pure ()
  | cons element elements ih =>
      unfold writeElements
      cases EtchArrayValue.getBase boxed av.component av.mDim element with
      | error failure => exact .throw _
      | ok object => exact (value _ _).orError.bind fun _ => ih

theorem follows_writeArray (boxed : Bool) (av : EtchArrayValue)
    (v : Option EtchValidator) :
    Follows (writeArray mStringTypeAndField Put.list next boxed av v)
      (writeArray mStringTypeAndField EtchFlexBuffer.sink next' boxed av
        v) := by
  refine (follows_startArray value av).orError.bind fun _ =>
    (Follows.orError ?_).bind fun _ => (value _ _).orError
  unfold writeValues
  cases v with
  | none => exact .throw _
  | some v =>
      dsimp only
      cases v.getElementValidator with
      | none => exact .throw _
      | some ev => exact follows_writeElements value _ _ _ _

omit value in
theorem follows_toArrayValue (component : EtchObjectType) (dim : Nat)
    (elements : List EtchObject) (v : Option EtchValidator) :
    Follows (toArrayValue vf component dim elements v)
      (toArrayValue vf component dim elements v) := by
  have struct : Follows (customStructType vf component v)
      (customStructType vf component v) := by
    refine (Follows.call _).bind fun type => ?_
    cases type with
    | some type => exact .pure _
    | none =>
        refine .ite ?_ (.pure _)
        cases v with
        | none => exact .throw _
        | some v => exact .pure _
  refine .ite (struct.bind fun type => ?_) (.pure _)
  cases type with
  | none => exact .throw _
  | some type => exact .pure _

omit value in
theorem follows_writeNumber (object : EtchObject)
    (put : Int → EtchFlexBuffer.Call) (are : ∀ number, (put number).IsPut) :
    @Follows S Unit (writeNumber Put.list object put are)
      (writeNumber EtchFlexBuffer.sink object put are) := by
  unfold writeNumber
  cases object.integer? with
  | none => exact .throw _
  | some number => exact .returning _ _

theorem follows_writePayload (typeCode : Int8) (v : Option EtchValidator)
    (object : EtchObject) :
    Follows
      (writePayload vf mStringTypeAndField Put.list next typeCode v object)
      (writePayload vf mStringTypeAndField EtchFlexBuffer.sink next' typeCode
        v object) := by
  have number (put : Int → EtchFlexBuffer.Call)
      (are : ∀ number, (put number).IsPut) :=
    @follows_writeNumber S object put are
  refine .ite (.pure _) (.ite (.pure _) (.ite (number _ _) (.ite (number _ _)
    (.ite (number _ _) (.ite (number _ _) (.ite ?float (.ite ?double
      (.ite ?bytes (.ite ?array (.ite ?string (.ite ?custom
        (.ite (.pure _) (.throw _)))))))))))))
  case float =>
    cases object with
    | float bits => exact .returning _ _
    | _ => exact .throw _
  case double =>
    cases object with
    | double bits => exact .returning _ _
    | _ => exact .throw _
  case bytes =>
    cases nativeBytes object with
    | none => exact .throw _
    | some bytes => exact follows_writeBytes value bytes
  case array =>
    cases object with
    | nativeArray boxed component dim elements =>
        exact (follows_toArrayValue _ _ _ _).orError.bind fun av =>
          follows_writeArray value boxed av v
    | _ => exact .throw _
  case string =>
    cases object with
    | string string => exact follows_writeBytes value string.bytes
    | _ => exact .throw _
  case custom =>
    refine (Follows.call _).bind fun struct => ?_
    cases struct with
    | none => exact .throw _
    | some sv => exact follows_writeStruct value sv

theorem follows_writeValue (v : Option EtchValidator) (object : EtchObject) :
    Follows (writeValue vf mStringTypeAndField Put.list next v object)
      (writeValue vf mStringTypeAndField EtchFlexBuffer.sink next' v
        object) := by
  have valid : Follows (checkValid vf v object : Writer (List Put) S Unit)
      (checkValid vf v object) := by
    refine .ite ?_ (.pure _)
    cases v with
    | none => exact .ite (.throw _) (.pure _)
    | some v => exact .ite (.pure _) (.throw _)
  unfold writeValue
  cases EtchBinaryTaggedData.checkValue object with
  | none => exact .throw _
  | some typeCode =>
      exact valid.bind fun _ => (Follows.dropping _ _).bind fun _ =>
        follows_writePayload value typeCode v object

end Methods

theorem follows_write (vf : EtchValueFactory S) (mStringTypeAndField : Bool)
    (fuel : Nat) (v : Option EtchValidator) (object : EtchObject) :
    Follows (write vf mStringTypeAndField Put.list fuel v object)
      (write vf mStringTypeAndField EtchFlexBuffer.sink fuel v object) := by
  induction fuel generalizing v object with
  | zero => exact .throw _
  | succ fuel ih => exact follows_writeValue ih v object

theorem follows_writeMessage (vf : EtchValueFactory S)
    (mStringTypeAndField : Bool) (fuel : Nat) (msg : EtchStructValue) :
    Follows (writeMessage vf mStringTypeAndField Put.list fuel msg)
      (writeMessage vf mStringTypeAndField EtchFlexBuffer.sink fuel
        msg) := by
  have value := follows_write vf mStringTypeAndField fuel
  exact ((Follows.dropping _ _).bind fun _ =>
      follows_startStruct value msg).orError.bind fun _ =>
    (follows_writeKeysAndValues value _ _).orError.bind fun _ =>
      (value _ _).orError

/-! ## Messages -/

/-- These are the puts of the message. -/
def Encodes (vf : EtchValueFactory S) (mStringTypeAndField : Bool)
    (fuel : Nat) (msg : EtchStructValue) (factory : S) (puts : List Put) :
    Prop :=
  ∃ factory', writeMessage vf mStringTypeAndField Put.list fuel msg
    ⟨[], factory⟩ = .ok () ⟨puts, factory'⟩

/-- The buffer has the message, behind what it had before the index. -/
def Complete (vf : EtchValueFactory S) (mStringTypeAndField : Bool)
    (fuel : Nat) (msg : EtchStructValue) (factory : S)
    (before after : EtchFlexBuffer) : Prop :=
  ∃ puts, Encodes vf mStringTypeAndField fuel msg factory puts ∧
    after.data = (before.growable.write (encoding puts)).contents

/-- A run that succeeds has made the puts of the message. -/
theorem writeMessage_ok_iff (vf : EtchValueFactory S)
    (mStringTypeAndField : Bool) (fuel : Nat) (msg : EtchStructValue)
    (factory : S) (fb next : EtchFlexBuffer) :
    (∃ factory', writeMessage vf mStringTypeAndField EtchFlexBuffer.sink fuel
      msg ⟨fb, factory⟩ = .ok () ⟨next, factory'⟩) ↔
    ∃ puts, Encodes vf mStringTypeAndField fuel msg factory puts ∧
      fb.replay puts = some next := by
  have follows :=
    follows_writeMessage vf mStringTypeAndField fuel msg [] factory fb
  cases done : writeMessage vf mStringTypeAndField Put.list fuel msg
      ⟨[], factory⟩ with
  | error failure after =>
      rw [done] at follows
      obtain ⟨failure', after', failed⟩ := follows
      constructor
      · rintro ⟨factory', ok⟩
        exact nomatch failed.symm.trans ok
      · rintro ⟨puts, ⟨factory', ok⟩, _⟩
        exact nomatch done.symm.trans ok
  | ok value after =>
      rw [done] at follows
      obtain ⟨puts, log, followed⟩ := follows
      have encodes : Encodes vf mStringTypeAndField fuel msg factory puts :=
        ⟨after.factory, by rw [done, ← List.nil_append puts, ← log]⟩
      have unique {puts' : List Put} (encodes' :
          Encodes vf mStringTypeAndField fuel msg factory puts') :
          puts' = puts := by
        obtain ⟨factory', ok⟩ := encodes'
        rw [done] at ok
        obtain ⟨_, rfl⟩ := EStateM.Result.ok.inj ok
        exact log.trans (List.nil_append puts)
      cases replayed : fb.replay puts with
      | none =>
          rw [replayed] at followed
          obtain ⟨failure', after', failed⟩ := followed
          constructor
          · rintro ⟨factory', ok⟩
            exact nomatch failed.symm.trans ok
          · rintro ⟨puts', encodes', ok⟩
            rw [unique encodes', replayed] at ok
            exact nomatch ok
      | some next' =>
          rw [replayed] at followed
          constructor
          · rintro ⟨factory', ok⟩
            rw [followed] at ok
            obtain ⟨_, same⟩ := EStateM.Result.ok.inj ok
            obtain ⟨rfl, rfl⟩ := EtchOutput.mk.inj same
            exact ⟨puts, encodes, replayed⟩
          · rintro ⟨puts', encodes', ok⟩
            rw [unique encodes', replayed] at ok
            obtain rfl := Option.some.inj ok
            exact ⟨_, followed⟩

/-- A message that is complete whenever the writer says so has no put
refused, where all the puts are made whose status is looked at. -/
theorem stores_of_complete {vf : EtchValueFactory S}
    {mStringTypeAndField : Bool} {fuel : Nat} {msg : EtchStructValue}
    {factory : S} {fb : EtchFlexBuffer}
    (complete : ∀ after, writeMessage vf mStringTypeAndField
        EtchFlexBuffer.sink fuel msg ⟨fb, factory⟩ = .ok () after →
      Complete vf mStringTypeAndField fuel msg factory fb after.mBuffer)
    {puts : List Put}
    (encodes : Encodes vf mStringTypeAndField fuel msg factory puts)
    (passes : (fb.replay puts).isSome = true) : fb.Stores puts := by
  obtain ⟨next, replayed⟩ := Option.isSome_iff_exists.mp passes
  obtain ⟨factory', ok⟩ := (writeMessage_ok_iff vf mStringTypeAndField fuel
    msg factory fb next).mpr ⟨puts, encodes, replayed⟩
  obtain ⟨puts', ⟨after', encodes'⟩, data⟩ := complete _ ok
  obtain ⟨after, encodes⟩ := encodes
  rw [encodes] at encodes'
  obtain ⟨rfl, _⟩ := EtchOutput.mk.inj (EStateM.Result.ok.inj encodes').2
  exact (EtchFlexBuffer.replay_complete_iff replayed).mp data

/-- The writer reports success only for a complete message if and only if no
put whose status it drops is refused where all the others are made. -/
theorem writeMessage_complete_iff (vf : EtchValueFactory S)
    (mStringTypeAndField : Bool) (fuel : Nat) (msg : EtchStructValue)
    (factory : S) (fb : EtchFlexBuffer) :
    (∀ after, writeMessage vf mStringTypeAndField EtchFlexBuffer.sink fuel
        msg ⟨fb, factory⟩ = .ok () after →
      Complete vf mStringTypeAndField fuel msg factory fb after.mBuffer) ↔
    ∀ puts, Encodes vf mStringTypeAndField fuel msg factory puts →
      (fb.replay puts).isSome = true → fb.Stores puts := by
  refine ⟨fun complete puts => stores_of_complete complete, ?_⟩
  rintro stores ⟨next, factory'⟩ ok
  obtain ⟨puts, encodes, replayed⟩ := (writeMessage_ok_iff vf
    mStringTypeAndField fuel msg factory fb next).mp ⟨factory', ok⟩
  refine ⟨puts, encodes,
    (EtchFlexBuffer.replay_complete_iff replayed).mpr ?_⟩
  exact stores puts encodes (Option.isSome_of_eq_some replayed)

/-- Codes that are refused leave no trace. -/
theorem replay_refused {fb : EtchFlexBuffer}
    (refuses : ∀ value, (EtchFlexBuffer.Call.putByte value).run fb =
      some (.ETCH_ENO_MEMORY, fb)) (values : List Int8) :
    fb.replay (values.map fun value => ⟨.putByte value, trivial, false⟩) =
      some fb := by
  induction values with
  | nil => rfl
  | cons value values ih =>
      rw [List.map_cons, EtchFlexBuffer.replay, refuses]
      exact ih

/-- A buffer with no room, and half of the bytes that it can have. -/
def full : EtchFlexBuffer where
  mBuffer := List.replicate (2 ^ 21) 0
  mIndex := 2 ^ 21
  mLength := 2 ^ 21
  index_le := Nat.le_refl _
  length_le := by rw [List.length_replicate]

theorem full_refuses (value : Int8) :
    (EtchFlexBuffer.Call.putByte value).run full =
      some (.ETCH_ENO_MEMORY, full) := by
  have size : full.mSize = 2 ^ 21 := List.length_replicate
  have length : (Etch.Java.FlexBuffer.numberBytes 1 value.toInt).length = 1 :=
    Etch.Java.FlexBuffer.length_numberBytes 1 _
  refine (EtchFlexBuffer.store_cases full.represents_growable
    (.inl length.symm) ?_).2 ?_
  · rw [length]
    decide
  · rw [length, EtchFlexBuffer.HasRoom, EtchFlexBuffer.capacity, size]
    decide

/-- Nothing of a message without fields is written, and no error reported. -/
theorem full_succeeds : ¬∀ {S : Type} (vf : EtchValueFactory S)
    (mStringTypeAndField : Bool) (fuel : Nat) (msg : EtchStructValue)
    (factory : S) (fb : EtchFlexBuffer) (after : EtchOutput EtchFlexBuffer S),
    writeMessage vf mStringTypeAndField EtchFlexBuffer.sink fuel msg
        ⟨fb, factory⟩ = .ok () after →
      Complete vf mStringTypeAndField fuel msg factory fb
        after.mBuffer := by
  intro complete
  have encodes : Encodes (.uniform (.integer .int32 0)) false 1
      ⟨⟨1, .ofCString []⟩, []⟩ ()
      ([3, 1, 0, -127].map fun value => ⟨.putByte value, trivial, false⟩) :=
    ⟨(), rfl⟩
  have stores := stores_of_complete (complete _ false 1 _ () full) encodes
    (Option.isSome_of_eq_some (replay_refused full_refuses _))
  obtain ⟨status, next, ran, stored, _⟩ := stores
  obtain ⟨rfl, _⟩ := Prod.mk.inj
    (Option.some.inj ((full_refuses 3).symm.trans ran))
  exact absurd (stored (by decide)) nofun

end EtchBinaryTaggedDataOutput

end Etch.Cpp
