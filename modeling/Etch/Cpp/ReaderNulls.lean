import Etch.Cpp.ReaderRuns

/-!
# Where the C++ reader uses `NULL`

A value whose code is that of `NULL` passes every validator.  `readType`,
`readField` and `readIntegerValue` look at what they have read without looking
whether it is there; nothing else does.
-/

namespace Etch.Cpp

/-- A type, a field or an integer is asked for, which is used as it is. -/
def Asker.Uses (asker : Asker) : Prop :=
  asker = .type ∨ asker = .field ∨ asker = .integer

/-- Such a value is asked for where the bytes say `NULL`. -/
def Ask.Null (ask : Ask) : Prop :=
  ask.asker.Uses ∧ ask.unread.head? = some 0x80

/-- No such value has been asked for. -/
def EtchInput.Sound {S : Type} (input : EtchInput S) : Prop :=
  ∀ ask ∈ input.asks, ¬ask.Null

namespace EtchBinaryTaggedDataInput

open Etch.Library.Stateful

variable {S α β : Type}

/-! ## Values that are not `NULL` -/

theorem validateValue_ne_null {v : EtchValidator} {value result : EtchObject}
    (some : value ≠ .null) (valid : validateValue v value = .ok result) :
    result ≠ .null := by
  have kept (v : EtchValidator) : ∀ result,
      v.validateValue value = Option.some result → result ≠ .null := by
    induction v with
    | integer width nDims =>
        intro result valid
        change EtchValidator.validateValueInteger width nDims value = _ at valid
        unfold EtchValidator.validateValueInteger at valid
        split_ifs at valid
        · obtain rfl := Option.some.inj valid
          exact some
        · obtain ⟨number, _, rfl⟩ := Option.map_eq_some_iff.mp valid
          cases width <;> rintro ⟨⟩
    | combo first second ih ih' =>
        intro result valid
        unfold EtchValidator.validateValue at valid
        split at valid
        · rename_i same
          obtain rfl := Option.some.inj valid
          exact ih _ same
        · exact ih' _ valid
    | _ =>
        intro result valid
        unfold EtchValidator.validateValue at valid
        split_ifs at valid
        obtain rfl := Option.some.inj valid
        exact some
  unfold validateValue at valid
  split at valid
  · exact absurd rfl some
  · split at valid
    · rename_i same
      obtain rfl := Except.ok.inj valid
      exact kept v _ same
    · cases valid

theorem returns_validateValue {v : EtchValidator} {value : EtchObject}
    (some : value ≠ .null) :
    Returns (· ≠ .null) (throwing (validateValue v value) :
      Reader S EtchObject) := by
  cases valid : validateValue v value with
  | ok result => exact .pure (validateValue_ne_null some valid)
  | error failure => exact .throw failure

theorem returns_import (vf : EtchValueFactory S) (v : EtchValidator)
    (sv : EtchStructValue) : Returns (· ≠ .null) (do
      let obj ← call (vf.importCustomValue sv)
      match obj with
      | none => (throw .ETCH_ERROR : Reader S EtchObject)
      | some obj => throwing (validateValue v obj)) := by
  have imported : Returns (· ≠ some .null)
      (call (vf.importCustomValue sv) : Reader S (Option EtchObject)) := by
    intro input value after done
    obtain ⟨rfl, rfl⟩ := EStateM.Result.ok.inj done
    exact vf.import_ne_null sv input.factory
  refine imported.bind fun obj present => ?_
  cases obj with
  | none => exact .throw _
  | some obj =>
      exact returns_validateValue fun same => present (congrArg some same)

/-- With a code of its own, a value is there. -/
theorem returns_readPayload (vf : EtchValueFactory S) (next : Calls S)
    {code : Int8} (some : code ≠ EtchTypeCode.Null) (v : EtchValidator)
    (noneOk : Bool) :
    Returns (· ≠ .null) (readPayload vf next code v noneOk) := by
  have valid {value : EtchObject} (some : value ≠ .null) :
      Returns (· ≠ .null) (throwing (validateValue v value) :
        Reader S EtchObject) :=
    returns_validateValue some
  have after {α : Type} {m : Reader S α} {value : α → EtchObject}
      (some : ∀ read, value read ≠ .null) : Returns (· ≠ .null) (do
        let read ← m
        throwing (validateValue v (value read))) :=
    .andThen fun read => valid (some read)
  unfold readPayload
  rw [if_neg some]
  refine .ite (.ite (.pure nofun) (valid nofun)) (.ite (valid nofun)
    (.ite (valid nofun) (.ite (after nofun) (.ite (after nofun)
      (.ite (after nofun) (.ite (after nofun) (.ite (after nofun)
        (.ite (after nofun) (.ite (after nofun) (.ite ?_
          (.ite (valid nofun) (.ite (after nofun) (.ite ?_
            (.ite (valid nofun) (.throw _)))))))))))))))
  · exact .andThen fun av => .ite (.pure nofun) (.throw _)
  · exact .andThen fun sv => returns_import vf v sv

/-! ## Faults and their reasons -/

/-- A run uses `NULL` if and only if it has asked for it. -/
def Explained : EStateM.Result Failure (EtchInput S) α → Prop
  | .ok _ after => after.Sound
  | .error failure after => failure = .nullPointer ↔ ¬after.Sound

/-- A method uses `NULL` if and only if it asks for it. -/
def Explains (m : Reader S α) : Prop :=
  ∀ input, input.Sound → Explained (m input)

theorem explained_bind {m : Reader S α} {rest : α → Reader S β}
    {input : EtchInput S} (first : Explained (m input))
    (second : ∀ value after, after.Sound → Explained (rest value after)) :
    Explained ((m >>= rest) input) := by
  cases done : m input with
  | ok value after =>
      rw [done] at first
      rw [bind_ok done]
      exact second value after first
  | error failure after =>
      rw [done] at first
      rw [bind_error done]
      exact first

theorem explained_attempt {m : Reader S α} {input : EtchInput S}
    (explained : Explained (m input)) : Explained (attempt m input) := by
  unfold attempt
  cases done : m input with
  | ok value after =>
      rw [done] at explained
      exact explained
  | error failure after =>
      rw [done] at explained
      dsimp only
      split_ifs with status
      · by_contra unsound
        obtain rfl := explained.mpr unsound
        exact nomatch status
      · exact explained

theorem explained_orReturn {m : Reader S α} {status : Failure}
    {input : EtchInput S} (is : status.isStatus = true)
    (explained : Explained (m input)) :
    Explained (orReturn status m input) := by
  unfold orReturn
  cases done : m input with
  | ok value after =>
      rw [done] at explained
      exact explained
  | error failure after =>
      rw [done] at explained
      dsimp only
      split_ifs with status'
      · have some : failure ≠ .nullPointer := by
          rintro rfl
          exact nomatch status'
        have other : status ≠ .nullPointer := by
          rintro rfl
          exact nomatch is
        exact iff_of_false other fun unsound => some (explained.mpr unsound)
      · exact explained

theorem Quiet.explains {m : Reader S α} (quiet : Quiet m) : Explains m := by
  intro input sound
  have asks := quiet.asks input
  cases done : m input with
  | ok value after =>
      rw [done] at asks
      exact fun ask inside => sound ask (asks ▸ inside)
  | error failure after =>
      rw [done] at asks
      exact iff_of_false (quiet.tame _ _ _ done).1 fun unsound =>
        unsound fun ask inside => sound ask (asks ▸ inside)

theorem Explains.bind {m : Reader S α} {rest : α → Reader S β}
    (first : Explains m) (second : ∀ value, Explains (rest value)) :
    Explains (m >>= rest) :=
  fun input sound => explained_bind (first input sound) second

theorem kept_explains :
    Kept (fun {α : Type} (m _ : Reader S α) => Explains m) where
  quiet := Quiet.explains
  bind := Explains.bind
  attempt explains input sound := explained_attempt (explains input sound)
  status is explains input sound :=
    explained_orReturn is (explains input sound)

/-- A value is `NULL` if and only if it has been asked for like that. -/
def Tells : EStateM.Result Failure (EtchInput S) EtchObject → Prop
  | .ok value after => value = .null ↔ ¬after.Sound
  | .error failure after => failure = .nullPointer ↔ ¬after.Sound

theorem explains_using {m : Reader S EtchObject} {status : Failure}
    {rest : EtchObject → Reader S α} (is : status.isStatus = true)
    (tells : ∀ input, input.Sound → Tells (m input))
    (null : rest .null = throw .nullPointer)
    (other : ∀ value, value ≠ .null → Explains (rest value)) :
    Explains (orReturn status m >>= rest) := by
  intro input sound
  have tells := tells input sound
  cases done : m input with
  | ok value after =>
      rw [done] at tells
      have kept : orReturn status m input = .ok value after := by
        rw [orReturn, done]
      rw [bind_ok kept]
      by_cases absent : value = .null
      · rw [absent, null]
        exact iff_of_true rfl (tells.mp absent)
      · exact other value absent after
          (not_not.mp fun unsound => absent (tells.mpr unsound))
  | error failure after =>
      rw [done] at tells
      have explained : Explained (m input) := by
        rw [done]
        exact tells
      have returned := explained_orReturn is explained
      cases failed : orReturn status m input with
      | ok value after =>
          unfold orReturn at failed
          rw [done] at failed
          exact nomatch failed
      | error failure after =>
          rw [failed] at returned
          rw [bind_error failed]
          exact returned

section Asking

variable {vf : EtchValueFactory S} {next : Calls S}
  (tells : ∀ asker v noneOk, asker.Uses → ∀ input, input.Sound →
    Tells (next.readValue asker v noneOk input))

include tells

theorem explains_readIntegerValue : Explains (readIntegerValue next) := by
  refine explains_using rfl (tells _ _ _ (.inr (.inr rfl))) rfl
    fun tmp some => ?_
  cases tmp with
  | null => exact absurd rfl some
  | int32 value => exact (quiet_pure _).explains
  | _ => exact (quiet_throw (by nofun) (by nofun)).explains

theorem explains_readType : Explains (readType vf next) := by
  refine explains_using rfl (tells _ _ _ (.inl rfl)) rfl
    fun obj some => ?_
  cases obj with
  | null => exact absurd rfl some
  | int32 id =>
      exact (quiet_call _).explains.bind fun _ => (quiet_pure _).explains
  | string name =>
      exact (quiet_call _).explains.bind fun _ =>
        (quiet_orNamed _ _).explains
  | NONE =>
      exact (quiet_call _).explains.bind fun _ =>
        (quiet_orNamed _ _).explains
  | _ => exact (quiet_throw (by nofun) (by nofun)).explains

theorem explains_readField (type : EtchType) :
    Explains (readField vf next type) := by
  refine explains_using rfl (tells _ _ _ (.inr (.inl rfl))) rfl
    fun obj some => ?_
  cases obj with
  | null => exact absurd rfl some
  | int32 id =>
      exact (quiet_call _).explains.bind fun _ => (quiet_pure _).explains
  | string name =>
      exact (quiet_call _).explains.bind fun _ =>
        (quiet_orNamed _ _).explains
  | _ => exact (quiet_throw (by nofun) (by nofun)).explains

end Asking

/-! ## Whole runs -/

theorem sound_note {asker : Asker} {input : EtchInput S}
    (sound : input.Sound) (other : ¬asker.Uses ∨
      input.mBuffer.unread.head? ≠ some 0x80) :
    EtchInput.Sound
      { input with asks := ⟨asker, input.mBuffer.unread⟩ :: input.asks } := by
  intro ask inside null
  rcases List.mem_cons.mp inside with rfl | before
  · exact other.elim (fun no => no null.1) fun no => no null.2
  · exact sound ask before null

/-- What the methods that are called do with `NULL`. -/
structure CallsExplain (next : Calls S) : Prop where
  tells : ∀ asker v noneOk, asker.Uses → ∀ input, input.Sound →
    Tells (next.readValue asker v noneOk input)
  readValue : ∀ asker v noneOk, ¬asker.Uses →
    Explains (next.readValue asker v noneOk)
  readKeysAndValues : ∀ sv, Explains (next.readKeysAndValues sv)
  readValues : ∀ ev av, Explains (next.readValues ev av)

theorem readValue_tells {vf : EtchValueFactory S} {next : Calls S}
    (payload : ∀ code v noneOk, Explains (readPayload vf next code v noneOk))
    (asker : Asker) (v : EtchValidator) (noneOk : Bool)
    (uses : asker.Uses) (input : EtchInput S) (sound : input.Sound) :
    Tells (readValue vf next asker v noneOk input) := by
  cases unread : input.mBuffer.unread with
  | nil =>
      have noted := @sound_note _ asker _ sound (.inr (by
        rw [unread]
        nofun))
      rw [unread] at noted
      rw [readValue_end unread]
      exact iff_of_false nofun fun unsound => unsound noted
  | cons byte rest =>
      obtain ⟨buffer, _, reads⟩ :=
        @readValue_cons _ vf next asker v noneOk input _ _ unread
      rw [reads]
      by_cases code : byte = 0x80
      · subst code
        exact iff_of_true rfl fun sound =>
          sound _ (.head _) ⟨uses, rfl⟩
      · have noted := @sound_note _ asker _ sound (.inr (by
          rw [unread]
          exact fun same => code (Option.some.inj same)))
        rw [unread] at noted
        have some : byte.toInt8 ≠ EtchTypeCode.Null := fun same =>
          code (congrArg Int8.toUInt8 same)
        have explained := payload byte.toInt8 v noneOk
          { input with
            mBuffer := buffer
            asks := ⟨asker, byte :: rest⟩ :: input.asks } noted
        have there := returns_readPayload vf next some v noneOk
        cases done : readPayload vf next byte.toInt8 v noneOk
            { input with
              mBuffer := buffer
              asks := ⟨asker, byte :: rest⟩ :: input.asks } with
        | ok value after =>
            rw [done] at explained
            exact iff_of_false (there _ _ _ done)
              fun unsound => unsound explained
        | error failure after =>
            rw [done] at explained
            exact explained

theorem callsExplain (vf : EtchValueFactory S) (fuel : Nat) :
    CallsExplain (calls vf fuel) := by
  induction fuel with
  | zero =>
      have cut {α : Type} (input : EtchInput S) (sound : input.Sound) :
          Explained ((throw .outOfFuel : Reader S α) input) :=
        iff_of_false nofun fun unsound => unsound sound
      exact ⟨fun _ _ _ _ => @cut EtchObject, fun _ _ _ _ => cut,
        fun _ => cut, fun _ _ => cut⟩
  | succ fuel ih =>
      have kept := @kept_explains S
      have type := @explains_readType _ vf (calls vf fuel) ih.tells
      have field := @explains_readField _ vf (calls vf fuel) ih.tells
      have integer := @explains_readIntegerValue _ (calls vf fuel) ih.tells
      have payload := @Kept.readPayload _ _ vf (calls vf fuel)
        (calls vf fuel) kept type integer ih.readKeysAndValues ih.readValues
      have other {asker : Asker} (not : asker = .entry ∨ asker = .ignored ∨
          ∃ takesNull, asker = .element takesNull) : ¬asker.Uses := by
        rintro (rfl | rfl | rfl) <;>
          rcases not with same | same | ⟨_, same⟩ <;> exact nomatch same
      constructor
      · exact readValue_tells payload
      · intro asker v noneOk plain
        refine Explains.bind (fun input sound =>
          sound_note sound (.inl plain)) fun _ => ?_
        refine Explains.bind (fun input sound => ?_)
          fun code => payload code v noneOk
        exact explained_orReturn rfl
          ((quiet_get forward_getByte).explains input sound)
      · exact @Kept.readKeysAndValues _ _ vf _ (calls vf fuel) kept
          ih.readKeysAndValues field
          (fun v => ih.readValue _ v _ (other (.inl rfl)))
          (fun v => ih.readValue _ v _ (other (.inr (.inl rfl))))
      · exact @Kept.readValues _ _ _ (calls vf fuel) kept ih.readValues
          fun _ v => ih.readValue _ v _ (other (.inr (.inr ⟨_, rfl⟩)))

theorem message_explains (vf : EtchValueFactory S) (fuel : Nat) :
    Explains (message vf fuel) := by
  have explain := callsExplain vf fuel
  have type := @explains_readType _ vf (calls vf fuel) explain.tells
  have integer := @explains_readIntegerValue _ (calls vf fuel) explain.tells
  have start := @Kept.startMessage _ _ vf _ (calls vf fuel)
    (@kept_explains S) type integer
  exact start.bind explain.readKeysAndValues

/-- The reader uses no `NULL` if and only if no type, no field and no integer
that it asks for is `NULL` in the bytes. -/
theorem readMessage_uses_iff (vf : EtchValueFactory S) (fuel : Nat)
    (buf : EtchFlexBuffer) (factory : S) :
    (¬∃ after, readMessage vf fuel buf factory =
      .error .nullPointer after) ↔
    ∀ ask ∈ (final (readMessage vf fuel buf factory)).asks, ¬ask.Null := by
  have explained : Explained (readMessage vf fuel buf factory) :=
    message_explains vf fuel _ fun _ => nofun
  cases done : readMessage vf fuel buf factory with
  | ok value after =>
      rw [done] at explained
      exact iff_of_true nofun explained
  | error failure after =>
      rw [done] at explained
      constructor
      · intro never
        by_contra unsound
        exact never ⟨after, by rw [explained.mpr unsound]⟩
      · rintro sound ⟨after', same⟩
        exact explained.mp (EStateM.Result.error.inj same).1 sound

/-- A message whose type is `NULL`. -/
def untyped : EtchFlexBuffer :=
  .ofBytes [3, 128]

theorem untyped_uses : ¬∀ {S : Type} (vf : EtchValueFactory S) (fuel : Nat)
    (buf : EtchFlexBuffer) (factory : S), ¬∃ after,
      readMessage vf fuel buf factory = .error .nullPointer after := by
  intro never
  exact never (.uniform (.integer .int32 0)) 2 untyped () ⟨_, rfl⟩

end EtchBinaryTaggedDataInput

end Etch.Cpp
