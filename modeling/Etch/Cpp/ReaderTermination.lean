import Etch.Cpp.ReaderRuns

/-!
# When the C++ reader comes to an end

Each call of `readValue` takes a byte or finds none.  A loop ends when there
is none, except the one for the elements of an array that takes `NULL`: it
does not look at the status, adds one `NULL` after the other, and never ends.
-/

namespace Etch.Cpp

/-- An element is asked for where there are no more bytes, of an array that
takes `NULL`. -/
def Ask.Starved (ask : Ask) : Prop :=
  ask.asker = .element true ∧ ask.unread = []

/-- No such element has been asked for. -/
def EtchInput.Fed {S : Type} (input : EtchInput S) : Prop :=
  ∀ ask ∈ input.asks, ¬ask.Starved

namespace EtchBinaryTaggedDataInput

open Etch.Library.Stateful

variable {S α β : Type}

/-- The run is cut off: the source goes on. -/
def CutOff (result : EStateM.Result Failure (EtchInput S) α) : Prop :=
  ∃ after, result = .error .outOfFuel after

theorem not_fed_of_subset {before after : EtchInput S}
    (kept : before.asks ⊆ after.asks) (starved : ¬before.Fed) :
    ¬after.Fed :=
  fun fed => starved fun ask inside => fed ask (kept inside)

/-! ## Starving -/

/-- Only a run that is cut off has starved. -/
def Ends : EStateM.Result Failure (EtchInput S) α → Prop
  | .ok _ after => after.Fed
  | .error failure after => after.Fed ∨ failure = .outOfFuel

theorem ends_bind {m : Reader S α} {rest : α → Reader S β}
    {input : EtchInput S} (first : Ends (m input))
    (second : ∀ value after, after.Fed → Ends (rest value after)) :
    Ends ((m >>= rest) input) := by
  cases done : m input with
  | ok value after =>
      rw [done] at first
      rw [bind_ok done]
      exact second value after first
  | error failure after =>
      rw [done] at first
      rw [bind_error done]
      exact first

theorem ends_attempt {m : Reader S α} {input : EtchInput S}
    (ends : Ends (m input)) : Ends (attempt m input) := by
  unfold attempt
  cases done : m input with
  | ok value after =>
      rw [done] at ends
      exact ends
  | error failure after =>
      rw [done] at ends
      dsimp only
      split_ifs with status
      · refine ends.resolve_right ?_
        rintro rfl
        exact nomatch status
      · exact ends

theorem ends_orReturn {m : Reader S α} {status : Failure}
    {input : EtchInput S} (ends : Ends (m input)) :
    Ends (orReturn status m input) := by
  unfold orReturn
  cases done : m input with
  | ok value after =>
      rw [done] at ends
      exact ends
  | error failure after =>
      rw [done] at ends
      rcases ends with fed | rfl
      · exact .inl fed
      · exact .inr rfl

/-- A method starves only in a run that is cut off. -/
def Starves (m : Reader S α) : Prop :=
  ∀ input, input.Fed → Ends (m input)

theorem Quiet.starves {m : Reader S α} (quiet : Quiet m) : Starves m := by
  intro input fed
  have asks := quiet.asks input
  cases done : m input with
  | ok value after =>
      rw [done] at asks
      exact fun ask inside => fed ask (asks ▸ inside)
  | error failure after =>
      rw [done] at asks
      exact .inl fun ask inside => fed ask (asks ▸ inside)

theorem kept_starves :
    Kept (fun {α : Type} (m _ : Reader S α) => Starves m) where
  quiet := Quiet.starves
  bind first second input fed := ends_bind (first input fed) second
  attempt starves input fed := ends_attempt (starves input fed)
  status _ starves input fed := ends_orReturn (starves input fed)

theorem unread_nil {input : EtchInput S} (zero : input.avail = 0) :
    input.mBuffer.unread = [] := by
  rw [← List.length_eq_zero_iff, EtchFlexBuffer.length_unread]
  exact zero

/-- The loop goes on at the end of the buffer. -/
theorem readValues_endless (vf : EtchValueFactory S) (fuel : Nat)
    (ev : EtchValidator) (av : EtchArrayValue) {input : EtchInput S}
    (takes : av.takesNull = true) (none : input.mBuffer.unread = []) :
    CutOff ((calls vf fuel).readValues ev av input) := by
  induction fuel generalizing av input with
  | zero => exact ⟨input, rfl⟩
  | succ fuel ih =>
      change CutOff (readValues (calls vf fuel) ev av input)
      unfold readValues
      rw [takes]
      cases fuel with
      | zero => exact ⟨input, bind_error rfl⟩
      | succ fuel =>
          have asked : attempt
              (readValue vf (calls vf fuel) (.element true) ev true) input =
                .ok Option.none
                  { input with asks := ⟨.element true, []⟩ :: input.asks } := by
            unfold attempt
            rw [readValue_end none]
            rfl
          refine (congrArg CutOff (bind_ok asked)).mpr ?_
          have added := av.add_null
          rw [if_pos takes] at added
          obtain ⟨more, added, takes'⟩ := added
          rw [Option.getD_none]
          dsimp only
          rw [added]
          exact ih more takes' none

/-- The methods that are called starve only where the run is cut off; an
element is asked for where there are bytes. -/
structure CallsStarve (next : Calls S) : Prop where
  readValue : ∀ asker v noneOk input,
    (asker = .element true → input.mBuffer.unread ≠ []) → input.Fed →
      Ends (next.readValue asker v noneOk input)
  readKeysAndValues : ∀ sv, Starves (next.readKeysAndValues sv)
  readValues : ∀ ev av, Starves (next.readValues ev av)

theorem callsStarve (vf : EtchValueFactory S) (fuel : Nat) :
    CallsStarve (calls vf fuel) := by
  induction fuel with
  | zero =>
      exact ⟨fun _ _ _ _ _ _ => .inr rfl, fun _ _ _ => .inr rfl,
        fun _ _ _ _ => .inr rfl⟩
  | succ fuel ih =>
      have kept := @kept_starves S
      have null {α : Type} : Starves (throw .nullPointer : Reader S α) :=
        fun _ fed => .inl fed
      have asks (asker : Asker) (v : EtchValidator) (noneOk : Bool)
          (other : asker ≠ .element true) :
          Starves ((calls vf fuel).readValue asker v noneOk) :=
        fun input fed => ih.readValue asker v noneOk input
          (fun same => absurd same other) fed
      have type := @Kept.readType _ _ vf _ (calls vf fuel) kept null asks
      have field := @Kept.readField _ _ vf _ (calls vf fuel) kept null asks
      have integer := @Kept.readIntegerValue _ _ _ (calls vf fuel) kept null
        asks
      constructor
      · intro asker v noneOk input some fed
        have noted : Ends (note asker input) := by
          intro ask inside
          rcases List.mem_cons.mp inside with rfl | before
          · exact fun starved => some starved.1 starved.2
          · exact fed ask before
        refine ends_bind noted fun _ after fed => ?_
        refine ends_bind ?_ fun code after fed => ?_
        · exact ends_orReturn ((quiet_get forward_getByte).starves after fed)
        · exact @Kept.readPayload _ _ vf _ (calls vf fuel) kept type integer
            ih.readKeysAndValues ih.readValues code v noneOk after fed
      · exact @Kept.readKeysAndValues _ _ vf _ (calls vf fuel) kept
          ih.readKeysAndValues field (fun v => asks _ v _ nofun)
          (fun v => asks _ v _ nofun)
      · intro ev av input fed
        by_cases starving : av.takesNull = true ∧ input.mBuffer.unread = []
        · obtain ⟨after, cut⟩ :=
            readValues_endless vf (fuel + 1) ev av starving.1 starving.2
          rw [cut]
          exact .inr rfl
        · refine ends_bind (ends_attempt ?_) fun value after fed => ?_
          · refine ih.readValue _ _ _ _ (fun same none => ?_) fed
            exact starving ⟨Asker.element.inj same, none⟩
          · have added (value : EtchObject) : Ends ((do
                let av ← throwing (av.add value)
                (calls vf fuel).readValues ev av) after) :=
              ends_bind ((quiet_add av value).starves after fed)
                fun av => ih.readValues ev av
            cases value.getD .null with
            | NONE => exact fed
            | _ => exact added _

theorem message_starves (vf : EtchValueFactory S) (fuel : Nat) :
    Starves (message vf fuel) := by
  have kept := @kept_starves S
  have starve := callsStarve vf fuel
  have null {α : Type} : Starves (throw .nullPointer : Reader S α) :=
    fun _ fed => .inl fed
  have asks (asker : Asker) (v : EtchValidator) (noneOk : Bool)
      (other : asker ≠ .element true) :
      Starves ((calls vf fuel).readValue asker v noneOk) :=
    fun input fed => starve.readValue asker v noneOk input
      (fun same => absurd same other) fed
  have type := @Kept.readType _ _ vf _ (calls vf fuel) kept null asks
  have integer := @Kept.readIntegerValue _ _ _ (calls vf fuel) kept null asks
  have start := @Kept.startMessage _ _ vf _ (calls vf fuel) kept type integer
  exact fun input fed => ends_bind (start input fed)
    starve.readKeysAndValues

/-! ## The cost of a method -/

/-- The calls so far, and what the bytes that are left may pay for. -/
def weight (input : EtchInput S) : Nat :=
  input.asks.length + 8 * input.avail

/-- A method that has not starved ends within its cost, if no more bytes are
left than a limit. -/
structure Costs (limit cost : Nat) (m : Reader S α) : Prop where
  onward : Onward m
  paid : ∀ input, input.avail ≤ limit → (final (m input)).Fed →
    ¬CutOff (m input) ∧ weight (final (m input)) ≤ weight input + cost

namespace Costs

variable {limit cost cost' : Nat} {m : Reader S α}

theorem mono (costs : Costs limit cost m) (less : cost ≤ cost') :
    Costs limit cost' m := by
  refine ⟨costs.onward, fun input short fed => ?_⟩
  obtain ⟨whole, paid⟩ := costs.paid input short fed
  exact ⟨whole, by omega⟩

theorem of_quiet (quiet : Quiet m) : Costs limit 0 m := by
  refine ⟨quiet.onward, fun input _ _ => ⟨?_, ?_⟩⟩
  · rintro ⟨after, cut⟩
    exact (quiet.tame _ _ _ cut).2 rfl
  · have avail := quiet.avail input
    unfold weight
    rw [quiet.asks input]
    omega

theorem pure (value : α) :
    Costs limit 0 (Pure.pure value : Reader S α) :=
  of_quiet (quiet_pure value)

theorem throw {failure : Failure} (status : failure.isStatus = true) :
    Costs limit 0 (MonadExcept.throw failure : Reader S α) := by
  refine of_quiet (quiet_throw ?_ ?_) <;> rintro rfl <;> exact nomatch status

theorem null :
    Costs limit 0 (MonadExcept.throw .nullPointer : Reader S α) := by
  refine ⟨onward_throw _, fun input _ _ => ⟨?_, Nat.le_refl _⟩⟩
  rintro ⟨after, cut⟩
  exact nomatch (EStateM.Result.error.inj cut).1

theorem undefined :
    Costs limit 0 (MonadExcept.throw .undefined : Reader S α) :=
  of_quiet (quiet_throw nofun nofun)

theorem bind {rest : α → Reader S β} {total : Nat}
    (first : Costs limit cost m)
    (second : ∀ value, Costs limit cost' (rest value))
    (sum : cost + cost' = total) : Costs limit total (m >>= rest) := by
  refine ⟨first.onward.bind fun value => (second value).onward, ?_⟩
  intro input short
  have paid := first.paid input short
  have avail := first.onward.avail input
  cases done : m input with
  | error failure after =>
      rw [done] at paid
      rw [bind_error done]
      intro fed
      obtain ⟨whole, paid⟩ := paid fed
      refine ⟨?_, by dsimp only [final] at paid ⊢; omega⟩
      rintro ⟨after', cut⟩
      obtain ⟨rfl, rfl⟩ := EStateM.Result.error.inj cut
      exact whole ⟨_, rfl⟩
  | ok value after =>
      rw [done] at paid avail
      rw [bind_ok done]
      intro fed
      have fed' : after.Fed := fun ask inside =>
        fed ask ((second value).onward.asks after inside)
      have less : after.avail ≤ input.avail := avail
      have paid : weight after ≤ weight input + cost := (paid fed').2
      have paid' := (second value).paid after (by omega) fed
      exact ⟨paid'.1, by omega⟩

theorem bindQuiet {rest : α → Reader S β} (first : Quiet m)
    (second : ∀ value, Costs limit cost (rest value)) :
    Costs limit cost (m >>= rest) :=
  (of_quiet first).bind second (Nat.zero_add cost)

theorem attempt (costs : Costs limit cost m) :
    Costs limit cost (attempt m) := by
  refine ⟨costs.onward.attempt, fun input short fed => ?_⟩
  rw [final_attempt] at fed ⊢
  obtain ⟨whole, paid⟩ := costs.paid input short fed
  refine ⟨?_, paid⟩
  rintro ⟨after, cut⟩
  unfold EtchBinaryTaggedDataInput.attempt at cut
  cases done : m input with
  | ok value after' =>
      rw [done] at cut
      exact nomatch cut
  | error failure after' =>
      rw [done] at cut whole
      dsimp only at cut
      split_ifs at cut
      obtain ⟨rfl, rfl⟩ := EStateM.Result.error.inj cut
      exact whole ⟨_, rfl⟩

theorem orReturn {status : Failure} (is : status.isStatus = true)
    (costs : Costs limit cost m) : Costs limit cost (orReturn status m) := by
  refine ⟨costs.onward.orReturn, fun input short fed => ?_⟩
  rw [final_orReturn] at fed ⊢
  obtain ⟨whole, paid⟩ := costs.paid input short fed
  refine ⟨?_, paid⟩
  rintro ⟨after, cut⟩
  unfold EtchBinaryTaggedDataInput.orReturn at cut
  cases done : m input with
  | ok value after' =>
      rw [done] at cut
      exact nomatch cut
  | error failure after' =>
      rw [done] at cut whole
      obtain ⟨same, rfl⟩ := EStateM.Result.error.inj cut
      split_ifs at same with other
      · rw [same] at is
        exact nomatch is
      · exact whole ⟨_, by rw [same]⟩

theorem ite {condition : Prop} [Decidable condition] {n : Reader S α}
    (first : Costs limit cost m) (second : Costs limit cost n) :
    Costs limit cost (if condition then m else n) := by
  split
  · exact first
  · exact second

end Costs

/-! ## What takes a byte -/

/-- A method that takes a byte and pays with it, or fails where there is
none. -/
structure Eats (limit : Nat) (m : Reader S α) : Prop where
  onward : Onward m
  some : ∀ input, 0 < input.avail → input.avail ≤ limit →
    (final (m input)).avail < input.avail ∧
      ((final (m input)).Fed → ¬CutOff (m input) ∧
        weight (final (m input)) + 3 ≤ weight input)
  none : ∀ input, input.avail = 0 → ∃ failure after,
    m input = .error failure after ∧ failure.isStatus = true ∧
      after.avail = 0 ∧ weight after ≤ weight input + 1

namespace Eats

variable {limit : Nat} {m : Reader S α}

theorem costs (eats : Eats limit m) : Costs limit 1 m := by
  refine ⟨eats.onward, fun input short fed => ?_⟩
  rcases Nat.eq_zero_or_pos input.avail with zero | positive
  · obtain ⟨failure, after, failed, status, avail, paid⟩ :=
      eats.none input zero
    rw [failed]
    refine ⟨?_, paid⟩
    rintro ⟨after', cut⟩
    obtain ⟨rfl, _⟩ := EStateM.Result.error.inj cut
    exact nomatch status
  · obtain ⟨whole, paid⟩ := (eats.some input positive short).2 fed
    exact ⟨whole, by omega⟩

theorem orReturn {status : Failure} (is : status.isStatus = true)
    (eats : Eats limit m) : Eats limit (orReturn status m) := by
  refine ⟨eats.onward.orReturn, fun input positive short => ?_,
    fun input zero => ?_⟩
  · have costs := (eats.costs.orReturn is).paid input short
    rw [final_orReturn] at costs ⊢
    obtain ⟨shrinks, paid⟩ := eats.some input positive short
    exact ⟨shrinks, fun fed => ⟨(costs fed).1, (paid fed).2⟩⟩
  · obtain ⟨failure, after, failed, status', avail, paid⟩ :=
      eats.none input zero
    refine ⟨status, after, ?_, is, avail, paid⟩
    unfold EtchBinaryTaggedDataInput.orReturn
    rw [failed]
    dsimp only
    rw [if_pos status']

theorem bind {rest : α → Reader S β} (eats : Eats limit m)
    (second : ∀ value, Costs limit 0 (rest value)) :
    Eats limit (m >>= rest) := by
  refine ⟨eats.onward.bind fun value => (second value).onward,
    fun input positive short => ?_, fun input zero => ?_⟩
  · obtain ⟨shrinks, paid⟩ := eats.some input positive short
    cases done : m input with
    | error failure after =>
        rw [done] at shrinks paid
        rw [bind_error done]
        refine ⟨shrinks, fun fed => ⟨?_, (paid fed).2⟩⟩
        rintro ⟨after', cut⟩
        obtain ⟨rfl, _⟩ := EStateM.Result.error.inj cut
        exact (paid fed).1 ⟨_, rfl⟩
    | ok value after =>
        rw [done] at shrinks paid
        rw [bind_ok done]
        have less : after.avail < input.avail := shrinks
        have shrinks' := (second value).onward.avail after
        refine ⟨shrinks'.trans_lt less, fun fed => ?_⟩
        have fed' : after.Fed := fun ask inside =>
          fed ask ((second value).onward.asks after inside)
        have paid : weight after + 3 ≤ weight input := (paid fed').2
        have paid' := (second value).paid after (by omega) fed
        exact ⟨paid'.1, by omega⟩
  · obtain ⟨failure, after, failed, status, avail, paid⟩ :=
      eats.none input zero
    exact ⟨failure, after, bind_error failed, status, avail, paid⟩

/-- A pass of a loop that looks whether a byte has been taken, and those after
it, which have fewer bytes. -/
theorem loop {rest : Option α → Reader S β} (eats : Eats limit m)
    (onward : ∀ value, Onward (rest value))
    (stop : Costs 0 0 (rest Option.none) ∨
      ∀ input, input.avail = 0 → ¬(final (m input)).Fed)
    (go : ∀ value less, less < limit → Costs less 4 (rest value)) :
    Costs limit 1 (attempt m >>= rest) := by
  refine ⟨eats.onward.attempt.bind onward, fun input short => ?_⟩
  rcases Nat.eq_zero_or_pos input.avail with zero | positive
  · obtain ⟨failure, after, failed, status, avail, paid⟩ :=
      eats.none input zero
    have tried : attempt m input = .ok Option.none after := by
      unfold EtchBinaryTaggedDataInput.attempt
      rw [failed]
      exact if_pos status
    rw [bind_ok tried]
    intro fed
    rcases stop with stop | starves
    · obtain ⟨whole, paid'⟩ := stop.paid after (Nat.le_of_eq avail) fed
      exact ⟨whole, by omega⟩
    · have starved := starves input zero
      rw [failed] at starved
      exact absurd fed
        (not_fed_of_subset ((onward Option.none).asks after) starved)
  · obtain ⟨shrinks, paid⟩ := eats.some input positive short
    have tried := (eats.costs.attempt).paid input short
    have same := final_attempt m input
    cases done : attempt m input with
    | error failure after =>
        rw [done] at tried same
        rw [bind_error done]
        intro fed
        refine ⟨?_, (tried fed).2⟩
        rintro ⟨after', cut⟩
        obtain ⟨rfl, _⟩ := EStateM.Result.error.inj cut
        exact (tried fed).1 ⟨_, rfl⟩
    | ok value after =>
        rw [done] at same
        rw [bind_ok done]
        rw [← same] at shrinks paid
        intro fed
        have fed' : after.Fed := fun ask inside =>
          fed ask ((onward value).asks after inside)
        have less : after.avail < input.avail := shrinks
        have paid : weight after + 3 ≤ weight input := (paid fed').2
        obtain ⟨whole, paid'⟩ :=
          (go value after.avail (by omega)).paid after (Nat.le_refl _) fed
        exact ⟨whole, by omega⟩

end Eats

/-! ## What the methods cost -/

section Methods

variable {vf : EtchValueFactory S} {next : Calls S} {limit : Nat}

/-- All calls of `readValue` take a byte, and all loops cost a call. -/
structure CallsEat (next : Calls S) (limit : Nat) : Prop where
  readValue : ∀ asker v noneOk, Eats limit (next.readValue asker v noneOk)
  readKeysAndValues : ∀ sv, Costs limit 1 (next.readKeysAndValues sv)
  readValues : ∀ ev av, Costs limit 1 (next.readValues ev av)

section Asking

variable (asks : ∀ asker v noneOk,
  Eats limit (next.readValue asker v noneOk))

include asks

theorem eats_readIntegerValue : Eats limit (readIntegerValue next) := by
  refine ((asks _ _ _).orReturn rfl).bind fun tmp => ?_
  cases tmp with
  | null => exact .null
  | int32 value => exact .pure _
  | _ => exact .undefined

theorem eats_readType : Eats limit (readType vf next) := by
  refine ((asks _ _ _).orReturn rfl).bind fun obj => ?_
  cases obj with
  | null => exact .null
  | int32 id => exact .bindQuiet (quiet_call _) fun _ => .pure _
  | string name =>
      exact .bindQuiet (quiet_call _) fun _ => .of_quiet (quiet_orNamed _ _)
  | NONE =>
      exact .bindQuiet (quiet_call _) fun _ => .of_quiet (quiet_orNamed _ _)
  | _ => exact .throw rfl

theorem eats_readField (type : EtchType) :
    Eats limit (readField vf next type) := by
  refine ((asks _ _ _).orReturn rfl).bind fun obj => ?_
  cases obj with
  | null => exact .null
  | int32 id => exact .bindQuiet (quiet_call _) fun _ => .pure _
  | string name =>
      exact .bindQuiet (quiet_call _) fun _ => .of_quiet (quiet_orNamed _ _)
  | _ => exact .throw rfl

theorem costs_readLength : Costs limit 1 (readLength next) :=
  ((eats_readIntegerValue asks).costs.orReturn (by rfl)).bind
    (fun _ => .bindQuiet (quiet_takeLength _) fun _ => .pure _) rfl

theorem costs_readBytes : Costs limit 1 (readBytes next) :=
  ((costs_readLength asks).orReturn (by rfl)).bind
    (fun _ => .bindQuiet (quiet_get (forward_get _)) fun _ => .ite
      (.bindQuiet (quiet_throw (by nofun) (by nofun)) fun _ => .pure _)
      (.pure _)) rfl

theorem costs_startStruct : Costs limit 2 (startStruct vf next) :=
  ((eats_readType asks).costs.orReturn (by rfl)).bind
    (fun _ => ((costs_readLength asks).orReturn (by rfl)).bind
      (fun _ => .pure _) rfl) rfl

theorem costs_startMessage : Costs limit 2 (startMessage vf next) := by
  have rest : Costs limit 2 (do
      let type ← EtchBinaryTaggedDataInput.orReturn Failure.ETCH_EIO
        (readType vf next)
      let _length ← EtchBinaryTaggedDataInput.orReturn Failure.ETCH_EIO
        (readLength next)
      return (⟨type, []⟩ : EtchStructValue)) :=
    ((eats_readType asks).costs.orReturn rfl).bind
      (fun _ => ((costs_readLength asks).orReturn rfl).bind
        (fun _ => .pure _) rfl) rfl
  refine (Costs.of_quiet (quiet_get forward_getByte)).attempt.bind
    (fun version => ?_) (Nat.zero_add 2)
  exact .ite (.bindQuiet (quiet_throw (by nofun) (by nofun)) fun _ => rest)
    rest

theorem costs_startArray : Costs limit 3 (startArray vf next) := by
  have typed (code : Int8) : Costs limit 1 (readStructType vf next code) :=
    .ite (((eats_readType asks).costs.orReturn (by rfl)).bind
        (fun _ => .pure _) rfl)
      ((Costs.pure _).mono (Nat.zero_le 1))
  have component (code : Int8) (struct : Option EtchType) :
      Costs limit 0 (allocNativeArray vf code struct) := by
    have type : Costs limit 0 (getComponentType vf code struct) := by
      cases struct with
      | none => exact .pure _
      | some struct => exact .bindQuiet (quiet_call _) fun _ => .pure _
    refine type.bind
      (fun componentType => (?_ : Costs limit 0 _)) rfl
    cases componentType with
    | none => exact .throw rfl
    | some c => exact .ite (.pure _) (.throw rfl)
  have rest (code : Int8) (struct : Option EtchType) (dim : Int) :
      Costs limit 1 (do
        let length ← EtchBinaryTaggedDataInput.orReturn .ETCH_ERROR
          (readLength next)
        let component ← allocNativeArray vf code struct
        return (⟨component, dim.toNat, List.replicate length .null, code,
          struct, 0⟩ : EtchArrayValue)) :=
    ((costs_readLength asks).orReturn rfl).bind
      (fun _ => (component code struct).bind (fun _ => .pure _) rfl) rfl
  refine (Costs.of_quiet (quiet_get forward_getByte)).attempt.bind
    (fun code => (typed _).bind (fun struct =>
      ((eats_readIntegerValue asks).costs.orReturn rfl).bind
        (fun dim => (?_ : Costs limit 1 _)) rfl) rfl) rfl
  exact .ite (.bindQuiet (quiet_throw (by nofun) (by nofun))
    fun _ => rest _ _ _) (rest _ _ _)

end Asking

theorem costs_readPayload (eat : CallsEat next limit) (code : Int8)
    (v : EtchValidator) (noneOk : Bool) :
    Costs limit 4 (readPayload vf next code v noneOk) := by
  have valid (value : EtchObject) :
      Costs limit 4 (throwing (validateValue v value) : Reader S EtchObject) :=
    (Costs.of_quiet (quiet_validateValue v value)).mono (Nat.zero_le 4)
  have number {α : Type}
      {op : EtchFlexBuffer → Option (α × EtchFlexBuffer)}
      {value : α → EtchObject} (forward : Forward op) : Costs limit 4 (do
        let tmp ← EtchBinaryTaggedDataInput.orReturn .ETCH_ERROR (get op)
        throwing (validateValue v (value tmp))) :=
    ((Costs.of_quiet (quiet_get forward)).orReturn rfl).bind
      (fun _ => valid _) (Nat.zero_add 4)
  have bytes := costs_readBytes eat.readValue
  have array : Costs limit 4 (readArray vf next v) := by
    refine (costs_startArray eat.readValue).bind (fun av => ?_)
      (Nat.add_comm 3 1)
    cases v.getElementValidator with
    | none => exact (Costs.throw rfl).mono (Nat.zero_le 1)
    | some ev => exact eat.readValues ev av
  have struct : Costs limit 3 (readStruct vf next) :=
    (costs_startStruct eat.readValue).bind eat.readKeysAndValues rfl
  have eight := forward_getNumber 8
  unfold readPayload
  refine .ite (valid _) (.ite (.ite ?_ (valid _)) (.ite (valid _)
    (.ite (valid _) (.ite (number forward_getByte)
      (.ite (number (forward_map (forward_getNumber 2) _))
        (.ite (number (forward_map forward_getInteger _))
          (.ite (number (forward_map eight _))
            (.ite (number (forward_map forward_getInteger _))
              (.ite (number (forward_map eight _)) (.ite ?_ (.ite ?_
                (.ite (valid _) (.ite ?_ (.ite ?_ (.ite (valid _)
                  ?_)))))))))))))))
  · exact (Costs.pure _).mono (Nat.zero_le 4)
  · exact ((bytes.orReturn rfl).bind
      (fun _ => .of_quiet (quiet_validateValue _ _)) rfl).mono (by decide)
  · exact (array.orReturn rfl).bind
      (fun _ => .ite (.pure _) (.throw rfl)) rfl
  · exact ((bytes.orReturn rfl).bind
      (fun _ => .of_quiet (quiet_validateValue _ _)) rfl).mono (by decide)
  · refine ((struct.orReturn rfl).bind
      (fun sv => (?_ : Costs limit 0 _)) rfl).mono (Nat.le_succ 3)
    refine .bindQuiet (quiet_call _) fun obj => ?_
    cases obj with
    | none => exact .throw rfl
    | some obj => exact .of_quiet (quiet_validateValue _ _)
  · exact (Costs.throw rfl).mono (Nat.zero_le 4)

/-- The byte that a value begins with pays for the value. -/
theorem eats_readValue {vf : EtchValueFactory S}
    (onward : ∀ asker v noneOk, Onward (readValue vf next asker v noneOk))
    (payload : ∀ less, less < limit → ∀ code v noneOk,
      Costs less 4 (readPayload vf next code v noneOk))
    (asker : Asker) (v : EtchValidator) (noneOk : Bool) :
    Eats limit (readValue vf next asker v noneOk) := by
  refine ⟨onward asker v noneOk, fun input positive short => ?_,
    fun input zero => ?_⟩
  · cases unread : input.mBuffer.unread with
    | nil =>
        have length : 0 = input.avail := by
          rw [← List.length_nil, ← unread]
          exact EtchFlexBuffer.length_unread input.mBuffer
        omega
    | cons byte rest =>
        obtain ⟨buffer, left, reads⟩ :=
          @readValue_cons _ vf next asker v noneOk input _ _ unread
        let noted : EtchInput S :=
          { input with
            mBuffer := buffer
            asks := ⟨asker, byte :: rest⟩ :: input.asks }
        have left : noted.avail + 1 = input.avail := by
          unfold EtchInput.avail
          rw [← EtchFlexBuffer.length_unread, ← EtchFlexBuffer.length_unread,
            unread, left, List.length_cons]
        have costs := payload noted.avail (by omega) byte.toInt8 v noneOk
        have shrinks := costs.onward.avail noted
        have noted_weight : weight noted + 7 = weight input := by
          unfold weight
          rw [← left, List.length_cons]
          omega
        have reads : readValue vf next asker v noneOk input =
            readPayload vf next byte.toInt8 v noneOk noted := reads
        rw [reads]
        refine ⟨by omega, fun fed => ?_⟩
        obtain ⟨whole, paid⟩ := costs.paid noted (Nat.le_refl _) fed
        exact ⟨whole, by omega⟩
  · have none := unread_nil zero
    refine ⟨_, _, readValue_end none, rfl, zero, ?_⟩
    unfold weight
    rw [List.length_cons]
    exact Nat.le_of_eq (Nat.add_right_comm _ _ _)

end Methods

/-! ## Whole runs -/

theorem readKeysAndValues_costs {vf : EtchValueFactory S} {next : Calls S}
    {limit : Nat} (onward : CallsOnward next)
    (reads : ∀ asker v noneOk, Eats limit (next.readValue asker v noneOk))
    (eat : ∀ less, less < limit → CallsEat next less)
    (sv : EtchStructValue) :
    Costs limit 1 (readKeysAndValues vf next sv) := by
  refine (eats_readField reads sv.mType).loop (fun key => ?_) (.inl (.pure _))
    fun key less below => ?_
  · cases key with
    | none => exact (quiet_pure _).onward
    | some key =>
        refine (quiet_call _).onward.bind fun v => ?_
        cases v with
        | some v =>
            exact (onward.readValue _ _ _).bind fun obj =>
              (quiet_put vf sv key obj).onward.bind onward.readKeysAndValues
        | none =>
            exact (onward.readValue _ _ _).attempt.bind
              fun _ => onward.readKeysAndValues sv
  · have eat := eat less below
    cases key with
    | none => exact (Costs.pure _).mono (Nat.zero_le 4)
    | some key =>
        refine .bindQuiet (quiet_call _) fun v => ?_
        cases v with
        | some v =>
            exact ((eat.readValue _ _ _).costs.bind (fun obj =>
              .bindQuiet (quiet_put vf sv key obj) eat.readKeysAndValues)
                rfl).mono (by decide)
        | none =>
            exact ((eat.readValue _ _ _).costs.attempt.bind
              (fun _ => eat.readKeysAndValues sv) rfl).mono (by decide)

theorem readValues_costs {next : Calls S} {limit : Nat}
    (onward : CallsOnward next)
    (reads : ∀ asker v noneOk, Eats limit (next.readValue asker v noneOk))
    (starves : ∀ v noneOk input, input.avail = 0 →
      ¬(final (next.readValue (.element true) v noneOk input)).Fed)
    (eat : ∀ less, less < limit → CallsEat next less)
    (ev : EtchValidator) (av : EtchArrayValue) :
    Costs limit 1 (readValues next ev av) := by
  refine (reads _ ev true).loop (fun value => ?_) ?_ fun value less below => ?_
  · have added (value : EtchObject) : Onward (do
        let av ← throwing (av.add value)
        next.readValues ev av) :=
      (quiet_add av value).onward.bind (onward.readValues ev)
    cases value.getD .null with
    | NONE => exact (quiet_pure _).onward
    | _ => exact added _
  · cases takes : av.takesNull with
    | true => exact .inr (starves ev true)
    | false =>
        left
        have refuses := av.add_null
        rw [if_neg (by simp [takes])] at refuses
        rw [Option.getD_none]
        dsimp only
        rw [refuses]
        exact Costs.throw rfl
  · have eat := eat less below
    have added (value : EtchObject) : Costs less 4 (do
        let av ← throwing (av.add value)
        next.readValues ev av) :=
      (Costs.bindQuiet (quiet_add av value) (eat.readValues ev)).mono
        (by decide)
    cases value.getD .null with
    | NONE => exact (Costs.pure _).mono (Nat.zero_le 4)
    | _ => exact added _

theorem starves_element (vf : EtchValueFactory S) (next : Calls S)
    (v : EtchValidator) (noneOk : Bool) (input : EtchInput S)
    (zero : input.avail = 0) :
    ¬(final (readValue vf next (.element true) v noneOk input)).Fed := by
  have none := unread_nil zero
  rw [readValue_end none]
  exact fun fed => fed _ (.head _) ⟨rfl, rfl⟩

/-- With two calls for each byte, and two more, no run is cut off that has
not starved. -/
theorem callsEat (vf : EtchValueFactory S) (limit : Nat) :
    ∀ fuel, 2 * limit + 2 ≤ fuel → CallsEat (calls vf fuel) limit := by
  induction limit using Nat.strongRecOn with
  | ind limit ih =>
      have reads (fuel : Nat) (enough : 2 * limit ≤ fuel) :
          ∀ asker v noneOk, Eats limit
            (readValue vf (calls vf fuel) asker v noneOk) :=
        eats_readValue (callsOnward vf (fuel + 1)).readValue
          fun less below code v noneOk =>
            costs_readPayload (ih less below fuel (by omega)) code v noneOk
      intro fuel enough
      obtain ⟨fuel, rfl⟩ : ∃ more, fuel = more + 2 := ⟨fuel - 2, by omega⟩
      have onward := callsOnward vf (fuel + 1)
      have eat (less : Nat) (below : less < limit) :
          CallsEat (calls vf (fuel + 1)) less :=
        ih less below (fuel + 1) (by omega)
      refine ⟨reads (fuel + 1) (by omega), ?_, ?_⟩
      · exact readKeysAndValues_costs onward (reads fuel (by omega)) eat
      · exact readValues_costs onward (reads fuel (by omega))
          (starves_element vf (calls vf fuel)) eat

theorem message_costs (vf : EtchValueFactory S) {fuel limit : Nat}
    (enough : 2 * limit + 2 ≤ fuel) : Costs limit 3 (message vf fuel) := by
  have eat := callsEat vf limit fuel enough
  exact (costs_startMessage eat.readValue).bind eat.readKeysAndValues rfl

/-! ## Messages -/

theorem fed_of_ends {result : EStateM.Result Failure (EtchInput S) α}
    (ends : Ends result) (whole : ¬CutOff result) : (final result).Fed := by
  cases result with
  | ok value after => exact ends
  | error failure after =>
      refine ends.resolve_right ?_
      rintro rfl
      exact whole ⟨_, rfl⟩

theorem readMessage_continues (vf : EtchValueFactory S)
    (buf : EtchFlexBuffer) (factory : S) {fuel fuel' : Nat}
    (less : fuel ≤ fuel') :
    readMessage vf fuel buf factory = readMessage vf fuel' buf factory ∨
      ∃ after, readMessage vf fuel buf factory = .error .outOfFuel after ∧
        after.asks ⊆ (final (readMessage vf fuel' buf factory)).asks :=
  message_continues vf less _

/-- A run that is not cut off is the run with any more fuel. -/
theorem readMessage_more (vf : EtchValueFactory S) (buf : EtchFlexBuffer)
    (factory : S) {fuel fuel' : Nat} (less : fuel ≤ fuel')
    (whole : ¬CutOff (readMessage vf fuel buf factory)) :
    readMessage vf fuel buf factory = readMessage vf fuel' buf factory :=
  (readMessage_continues vf buf factory less).resolve_right
    fun ⟨after, cut, _⟩ => whole ⟨after, cut⟩

theorem readMessage_starves (vf : EtchValueFactory S) (fuel : Nat)
    (buf : EtchFlexBuffer) (factory : S) :
    Ends (readMessage vf fuel buf factory) :=
  message_starves vf fuel _ fun _ => nofun

/-- If one run is not cut off, none has starved. -/
theorem fed_of_whole {vf : EtchValueFactory S} {buf : EtchFlexBuffer}
    {factory : S} {fuel' : Nat}
    (whole : ¬CutOff (readMessage vf fuel' buf factory)) (fuel : Nat) :
    (final (readMessage vf fuel buf factory)).Fed := by
  have same :=
    readMessage_more vf buf factory (Nat.le_max_right fuel fuel') whole
  have fed : (final (readMessage vf fuel' buf factory)).Fed := by
    rw [same] at whole ⊢
    exact fed_of_ends (readMessage_starves vf _ buf factory) whole
  rw [same] at fed
  rcases readMessage_continues vf buf factory
    (Nat.le_max_left fuel fuel') with equal | ⟨after, cut, before⟩
  · rwa [equal]
  · rw [cut]
    exact fun ask inside => fed ask (before inside)

/-- With enough fuel, a run that has not starved is whole, and short. -/
theorem readMessage_paid (vf : EtchValueFactory S) {fuel : Nat}
    {buf : EtchFlexBuffer} {factory : S}
    (enough : 2 * buf.getAvailableBytes + 2 ≤ fuel)
    (fed : (final (readMessage vf fuel buf factory)).Fed) :
    ¬CutOff (readMessage vf fuel buf factory) ∧
      (final (readMessage vf fuel buf factory)).asks.length ≤
        8 * buf.getAvailableBytes + 3 := by
  obtain ⟨whole, paid⟩ :=
    (message_costs vf enough).paid _ (Nat.le_refl _) fed
  refine ⟨whole, (Nat.le_add_right _ _).trans (paid.trans ?_)⟩
  exact Nat.le_of_eq (congrArg (· + 3) (Nat.zero_add _))

/-- A message that ends after the head of an array of integers. -/
def headless : EtchFlexBuffer :=
  .ofBytes [3, 1, 1, 2, 145, 134, 1, 0]

end EtchBinaryTaggedDataInput

end Etch.Cpp
