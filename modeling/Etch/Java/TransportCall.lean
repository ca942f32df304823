import Etch.Java.PlainMailboxManager
import Etch.Java.ValueFactory

/-!
# A Java `transportCall` that fails

The call stamps the message with an id, registers a mailbox for the reply, and
sends the message.  The transport may do anything to the manager meanwhile, as
other threads may.
-/

namespace Etch.Java

open Etch.Library.Stateful
open ValueFactory (mf_messageId mf_inReplyTo unchecked)

namespace PlainMailboxManager

variable {S R : Type}

/-- What a call works on: the manager, how many mailboxes there are, the value
factory, the transport, and the message. -/
structure Call (S R : Type) where
  manager : PlainMailboxManager
  created : Nat
  factory : S
  transport : R
  msg : StructValue

/-- `transport.transportMessage( recipient, msg )` -/
structure Transport (R : Type) where
  transportMessage (msg : StructValue) :
    EStateM Thrown (PlainMailboxManager × R) Unit

namespace Call

/-- `(Long) msg.get( key )` -/
def getLong (key : Field) : EStateM Thrown (Call S R) (Option Int64) :=
  fun call =>
    match call.msg.get key with
    | .null => .ok none call
    | .long value => .ok (some value) call
    | _ => .error .classCastException call

/-- `msg.setMessageId( msgid )` -/
def setMessageId (vf : ValueFactory S) (msgid : Int) :
    EStateM Thrown (Call S R) Unit :=
  fun call =>
    match call.msg.put vf mf_messageId (.long (.ofInt msgid)) call.factory with
    | .ok msg factory => .ok () { call with msg, factory }
    | .error thrown factory => .error thrown { call with factory }

/-- `idGen.next()` -/
def nextId : EStateM Thrown (Call S R) Int :=
  fun call =>
    .ok call.manager.next.1 { call with manager := call.manager.next.2 }

/-- `register( new PlainMailbox( this, msgid ) )` -/
def registerMailbox (msgid : Int) : EStateM Thrown (Call S R) Nat :=
  fun call =>
    match call.manager.register msgid call.created with
    | .ok manager =>
        .ok call.created { call with manager, created := call.created + 1 }
    | .error thrown =>
        .error thrown { call with created := call.created + 1 }

/-- The call of the transport, and what is done where it throws. -/
def send (transport : Transport R) (msgid : Int) :
    EStateM Thrown (Call S R) Unit :=
  fun call =>
    match transport.transportMessage call.msg
        (call.manager, call.transport) with
    | .ok _ (manager, transport) => .ok () { call with manager, transport }
    | .error thrown (manager, transport) =>
        .error thrown
          { call with
            manager := if thrown.isException then manager.unregister msgid
              else manager
            transport }

/-- What follows on the tests of the message. -/
def stampAndSend (vf : ValueFactory S) (transport : Transport R) :
    EStateM Thrown (Call S R) Nat := do
  let msgid ← nextId
  setMessageId vf msgid
  let mb ← registerMailbox msgid
  send transport msgid
  return mb

/-- `transportCall( recipient, msg )`, with the number of the mailbox. -/
def transportCall (vf : ValueFactory S) (transport : Transport R) :
    EStateM Thrown (Call S R) Nat := do
  if (← getLong mf_messageId).isSome then
    throw (.illegalStateException (text "message has already been sent"))
  else if (← getLong mf_inReplyTo).isSome then
    throw (.illegalStateException (text "message is marked as a reply"))
  else
    stampAndSend vf transport

/-- Where the call throws, the mailboxes and the message are as before. -/
def Atomic (before : Call S R) :
    EStateM.Result Thrown (Call S R) Nat → Prop
  | .ok _ _ => True
  | .error _ after =>
      (∀ msgid, after.manager.getMailbox msgid =
        before.manager.getMailbox msgid) ∧ after.msg = before.msg

/-- The message is stamped, and then the manager is down, the id is taken, or
the transport throws. -/
structure FailsLate (vf : ValueFactory S) (transport : Transport R)
    (before : Call S R) : Prop where
  unsent : before.msg.get mf_messageId = .null
  original : before.msg.get mf_inReplyTo = .null
  fails : ∃ msg factory,
    before.msg.put vf mf_messageId (.long (.ofInt before.manager.nextId))
      before.factory = .ok msg factory ∧
    ∀ manager, before.manager.next.2.register before.manager.nextId
        before.created = .ok manager →
      ∃ thrown after, transport.transportMessage msg
        (manager, before.transport) = .error thrown after

/-! ## The stamp -/

theorem lookup_set (fields : List (Field × Value)) (key : Field)
    (value : Value) (has : (fields.any fun entry => entry.1 = key) = true) :
    (fields.map fun entry =>
      if entry.1 = key then (key, value) else entry).lookup key =
        some value := by
  induction fields with
  | nil => exact nomatch has
  | cons entry fields ih =>
      by_cases same : entry.1 = key
      · simp [same]
      · have has : (fields.any fun entry => entry.1 = key) = true := by
          simpa [same] using has
        rw [List.map_cons, if_neg same, List.lookup_cons,
          beq_false_of_ne (Ne.symm same)]
        exact ih has

theorem lookup_none (fields : List (Field × Value)) (key : Field)
    (none : ¬ (fields.any fun entry => entry.1 = key) = true) :
    fields.lookup key = .none := by
  rw [List.lookup_eq_none_iff]
  intro entry member
  have different : key ≠ entry.1 := by
    rintro rfl
    exact none (List.any_eq_true.mpr ⟨entry, member, decide_eq_true rfl⟩)
  simpa using different

theorem get_set (struct : StructValue) (key : Field) (value : Value) :
    (struct.set key value).get key = value := by
  unfold StructValue.set StructValue.get
  split
  · rename_i has
    rw [lookup_set struct.fields key value has]
    rfl
  · rename_i none
    simp [List.lookup_append, lookup_none struct.fields key none]

theorem put_ok {vf : ValueFactory S} {struct stamped : StructValue}
    {key : Field} {value : Int64} {factory after : S}
    (puts : struct.put vf key (.long value) factory = .ok stamped after) :
    stamped = struct.set key (.long value) := by
  have returns : Returns (fun stamped => stamped = struct.set key
      (.long value)) (struct.put vf key (.long value)) := by
    refine .ite (.andThen fun v => ?_) (.pure rfl)
    cases v with
    | none => exact .ite (.andThen fun _ => .pure rfl) (.pure rfl)
    | some v => exact .ite (.andThen fun _ => .pure rfl) (.pure rfl)
  exact returns _ _ _ puts

/-- The message is not what it was. -/
theorem stamped_ne {vf : ValueFactory S} {struct stamped : StructValue}
    {value : Int64} {factory after : S} {key : Field}
    (puts : struct.put vf key (.long value) factory = .ok stamped after)
    (unsent : struct.get key = .null) : stamped ≠ struct := by
  rintro rfl
  have stamp := get_set stamped key (.long value)
  rw [← put_ok puts, unsent] at stamp
  exact nomatch stamp

/-! ## Failing early and failing late -/

variable {vf : ValueFactory S} {transport : Transport R}
  {before : Call S R}

/-- The call, once the message has been found to be new. -/
theorem transportCall_eq (unsent : before.msg.get mf_messageId = .null)
    (original : before.msg.get mf_inReplyTo = .null) :
    transportCall vf transport before = stampAndSend vf transport before := by
  have first : getLong mf_messageId before = .ok none before := by
    rw [getLong, unsent]
  have second : getLong mf_inReplyTo before = .ok none before := by
    rw [getLong, original]
  rw [transportCall, bind_ok first, if_neg (by simp), bind_ok second,
    if_neg (by simp)]

theorem getLong_eq (key : Field) (call : Call S R) :
    (∃ id, getLong key call = .ok id call ∧
        (id = none ↔ call.msg.get key = .null)) ∨
      (call.msg.get key ≠ .null ∧
        getLong key call = .error .classCastException call) := by
  unfold getLong
  cases call.msg.get key with
  | null => exact .inl ⟨none, rfl, iff_of_true rfl rfl⟩
  | long value => exact .inl ⟨some value, rfl, iff_of_false nofun nofun⟩
  | _ => exact .inr ⟨nofun, rfl⟩

/-- A call that fails before it stamps the message changes nothing. -/
theorem transportCall_early
    (known : before.msg.get mf_messageId ≠ .null ∨
      before.msg.get mf_inReplyTo ≠ .null) :
    ∃ thrown, transportCall vf transport before = .error thrown before := by
  unfold transportCall
  rcases getLong_eq mf_messageId before with
    ⟨id, got, none_iff⟩ | ⟨_, fails⟩
  · rw [bind_ok got]
    cases id with
    | some id => exact ⟨_, rfl⟩
    | none =>
        have isReply := known.resolve_left (not_not.mpr (none_iff.mp rfl))
        rw [if_neg (by simp)]
        rcases getLong_eq mf_inReplyTo before with
          ⟨id, got, none_iff⟩ | fails
        · rw [bind_ok got]
          cases id with
          | some id => exact ⟨_, rfl⟩
          | none => exact absurd (none_iff.mp rfl) isReply
        · exact ⟨_, bind_error fails.2⟩
  · exact ⟨_, bind_error fails⟩

/-- A call either stamps the message or fails with all as it was. -/
theorem stampAndSend_cases :
    (∃ msg factory, before.msg.put vf mf_messageId
        (.long (.ofInt before.manager.nextId)) before.factory =
          .ok msg factory ∧
      stampAndSend vf transport before = (do
        let mb ← registerMailbox before.manager.nextId
        send transport before.manager.nextId
        return mb : EStateM Thrown (Call S R) Nat)
          { before with manager := before.manager.next.2, msg, factory }) ∨
    ∃ thrown factory, before.msg.put vf mf_messageId
        (.long (.ofInt before.manager.nextId)) before.factory =
          .error thrown factory ∧
      stampAndSend vf transport before = .error thrown
        { before with manager := before.manager.next.2, factory } := by
  have first : nextId before = .ok before.manager.nextId
      { before with manager := before.manager.next.2 } := rfl
  rw [stampAndSend, bind_ok first]
  cases puts : before.msg.put vf mf_messageId
      (.long (.ofInt before.manager.nextId)) before.factory with
  | ok msg factory =>
      have second : setMessageId vf before.manager.nextId
          { before with manager := before.manager.next.2 } = .ok ()
          { before with manager := before.manager.next.2, msg, factory } := by
        rw [setMessageId, puts]
      exact .inl ⟨msg, factory, rfl, bind_ok second⟩
  | error thrown factory =>
      refine .inr ⟨thrown, factory, rfl, ?_⟩
      refine bind_error ?_
      rw [setMessageId, puts]

/-- A call that fails has changed the message if and only if it fails late. -/
theorem transportCall_atomic_iff (vf : ValueFactory S)
    (transport : Transport R) (before : Call S R) :
    Atomic before (transportCall vf transport before) ↔
      ¬ FailsLate vf transport before := by
  by_cases known : before.msg.get mf_messageId ≠ .null ∨
      before.msg.get mf_inReplyTo ≠ .null
  · obtain ⟨thrown, fails⟩ := @transportCall_early S R vf transport
      before known
    rw [fails]
    refine iff_of_true ⟨fun _ => rfl, rfl⟩ fun late => ?_
    exact known.elim (· late.unsent) (· late.original)
  · simp only [not_or, not_not] at known
    obtain ⟨unsent, original⟩ := known
    rw [transportCall_eq unsent original]
    rcases @stampAndSend_cases S R vf transport before with
      ⟨msg, factory, puts, calls⟩ | ⟨thrown, factory, puts, calls⟩
    · have changed := stamped_ne puts unsent
      rw [calls]
      cases registers : before.manager.next.2.register before.manager.nextId
          before.created with
      | error thrown =>
          have first : registerMailbox before.manager.nextId
              { before with manager := before.manager.next.2, msg, factory } =
              .error thrown { before with
                manager := before.manager.next.2, msg, factory,
                created := before.created + 1 } := by
            rw [registerMailbox, registers]
          rw [bind_error first]
          refine iff_of_false (fun atomic => changed atomic.2)
            (not_not_intro ⟨unsent, original, msg, factory, puts, ?_⟩)
          intro manager registered
          exact nomatch registers.symm.trans registered
      | ok manager =>
          have first : registerMailbox before.manager.nextId
              { before with manager := before.manager.next.2, msg, factory } =
              .ok before.created { before with
                manager, msg, factory, created := before.created + 1 } := by
            rw [registerMailbox, registers]
          rw [bind_ok first]
          cases sends : transport.transportMessage msg
              (manager, before.transport) with
          | ok sent after =>
              have second : send transport before.manager.nextId
                  { before with
                    manager, msg, factory, created := before.created + 1 } =
                  .ok () { before with
                    manager := after.1, transport := after.2, msg, factory,
                    created := before.created + 1 } := by
                rw [send, sends]
              rw [bind_ok second]
              refine iff_of_true trivial fun late => ?_
              obtain ⟨msg', factory', puts', fails⟩ := late.fails
              obtain ⟨rfl, rfl⟩ :=
                EStateM.Result.ok.inj (puts.symm.trans puts')
              obtain ⟨thrown, after', throws⟩ := fails manager registers
              exact nomatch sends.symm.trans throws
          | error thrown after =>
              have second : send transport before.manager.nextId
                  { before with
                    manager, msg, factory, created := before.created + 1 } =
                  .error thrown { before with
                    manager := if thrown.isException then
                        after.1.unregister before.manager.nextId
                      else after.1
                    transport := after.2, msg, factory,
                    created := before.created + 1 } := by
                rw [send, sends]
              rw [bind_error second]
              refine iff_of_false (fun atomic => changed atomic.2)
                (not_not_intro ⟨unsent, original, msg, factory, puts, ?_⟩)
              intro manager' registered
              obtain rfl := Except.ok.inj (registers.symm.trans registered)
              exact ⟨thrown, after, sends⟩
    · rw [calls]
      refine iff_of_true ⟨fun _ => rfl, rfl⟩ fun late => ?_
      obtain ⟨msg', factory', puts', _⟩ := late.fails
      exact nomatch puts.symm.trans puts'

/-! ## A manager that is down -/

/-- A transport that takes any message. -/
def anyMessage : Transport Unit :=
  ⟨fun _ => return ()⟩

/-- A new message for a manager that is up or down. -/
def newCall (up : Bool) (msg : StructValue) : Call Unit Unit :=
  ⟨⟨up, 1, []⟩, 0, (), (), msg⟩

/-- Whether a call has thrown, and the id that the message then has. -/
def outcome : EStateM.Result Thrown (Call Unit Unit) Nat →
    Option Thrown × Option Int64
  | .ok _ after => (none, stamp after.msg)
  | .error thrown after => (some thrown, stamp after.msg)
where
  stamp (msg : StructValue) : Option Int64 :=
    match msg.get mf_messageId with
    | .long id => some id
    | _ => none

/-- A message that is refused while the manager is down has been stamped, and
is refused for this when the manager is up. -/
theorem down_stamps :
    ¬ Atomic (newCall false ⟨.ofName [], []⟩)
      (transportCall unchecked anyMessage
        (newCall false ⟨.ofName [], []⟩)) ∧
    (outcome (transportCall unchecked anyMessage (newCall true
      (final (transportCall unchecked anyMessage
        (newCall false ⟨.ofName [], []⟩))).msg))).1 =
      some (.illegalStateException
        (text "message has already been sent")) := by
  refine ⟨?_, by decide +kernel⟩
  intro atomic
  have stamped : (outcome (transportCall unchecked anyMessage
      (newCall false ⟨.ofName [], []⟩))).2 ≠ none := by
    decide +kernel
  have fails : (outcome (transportCall unchecked anyMessage
      (newCall false ⟨.ofName [], []⟩))).1.isSome = true := by
    decide +kernel
  generalize transportCall unchecked anyMessage
    (newCall false ⟨.ofName [], []⟩) = result at atomic stamped fails
  cases result with
  | ok mb after => exact nomatch fails
  | error thrown after =>
      refine stamped ?_
      change outcome.stamp after.msg = none
      rw [atomic.2]
      rfl

end Call

end PlainMailboxManager

end Etch.Java
