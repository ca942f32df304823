import Etch.Java.PlainMailboxManager
import Mathlib.RingTheory.Coprime.Lemmas

/-!
# The message ids of a `PlainMailboxManager`

The stride of the generator is odd, so that it comes back to a number only
after all others.  A reply that comes when its mailbox is gone is therefore
never taken for the reply to a later call.
-/

namespace Etch.Java.PlainMailboxManager

open Etch.Library.Monitor

/-- `id` is the number that the generator makes after `n` others. -/
def Nth (first : Int) (n : Nat) (id : Int) : Prop :=
  (2 ^ 64 : Int) ∣ id - (first + 37 * n)

theorem Nth.inj {first id : Int} {m n : Nat} (few : m < 2 ^ 64)
    (few' : n < 2 ^ 64) (nth : Nth first m id) (nth' : Nth first n id) :
    n = m := by
  have odd : IsCoprime (2 ^ 64 : Int) 37 :=
    Int.isCoprime_iff_gcd_eq_one.mpr rfl
  have same : (2 ^ 64 : Int) ∣ m - n := by
    refine odd.dvd_of_dvd_mul_left ?_
    convert dvd_sub nth' nth using 1
    ring
  exact (Nat.modEq_iff_dvd.mpr (by exact_mod_cast same)).eq_of_lt_of_lt few'
    few

theorem Nth.next {first : Int} {used : Nat} {manager : PlainMailboxManager}
    (nth : Nth first used manager.nextId) :
    Nth first (used + 1) manager.next.2.nextId := by
  have turns := Int.bmod_add_bdiv (manager.nextId + 37) (2 ^ 64)
  unfold Nth at nth ⊢
  change 2 ^ 64 ∣ Int.bmod (manager.nextId + 37) (2 ^ 64) - _
  omega

/-- The ids of the mailboxes there are, and the next one. -/
structure Ids where
  nextId : Int
  created : Nat
  of : Nat → Int

/-- So many numbers have been made, and no mailbox has that of another. -/
structure Ids.Numbered (first : Int) (used : Nat) (ids : Ids) : Prop where
  next : Nth first used ids.nextId
  drawn : ∀ mb < ids.created, ∃ n < used, Nth first n (ids.of mb)
  distinct : ∀ mb < ids.created, ∀ older < mb, ids.of older ≠ ids.of mb

variable {Thread Element Notify Object : Type} [DecidableEq Thread]
  [DecidableEq Element] {state after : State Thread Element Notify Object}
  {first : Int} {used : Nat}

def State.ids (state : State Thread Element Notify Object) : Ids :=
  ⟨state.manager.nextId, state.created,
    fun mb => (state.mailbox mb).messageId⟩

omit [DecidableEq Thread] [DecidableEq Element] in
theorem messageId_update {mb : Nat}
    {mailbox : PlainMailbox Element Notify Object} {id : Int}
    (is : mailbox.messageId = id) (other : Nat) :
    (Function.update state.mailbox mb mailbox other).messageId =
      Function.update state.ids.of mb id other := by
  obtain rfl | ne := eq_or_ne other mb
  · rwa [Function.update_self, Function.update_self]
  · rw [Function.update_of_ne ne, Function.update_of_ne ne]
    rfl

open Ids (Numbered)

omit [DecidableEq Thread] [DecidableEq Element] in
theorem numbered_create (numbered : Numbered first used state.ids)
    (few : used < 2 ^ 64) : Numbered first (used + 1) state.create.ids := by
  have of : state.create.ids.of =
      Function.update state.ids.of state.created state.ids.nextId :=
    funext (messageId_update rfl)
  have old {mb : Nat} (there : mb < state.created) :
      state.create.ids.of mb = state.ids.of mb := by
    rw [of, Function.update_of_ne there.ne]
  have newest : state.create.ids.of state.created = state.ids.nextId := by
    rw [of, Function.update_self]
  refine ⟨numbered.next.next, fun mb there => ?_, fun mb there older lt => ?_⟩
  · obtain rfl | before := (Nat.lt_succ_iff.mp there).eq_or_lt
    · exact ⟨used, Nat.lt_succ_self _, newest ▸ numbered.next⟩
    · obtain ⟨n, less, drawn⟩ := numbered.drawn mb before
      exact ⟨n, less.trans (Nat.lt_succ_self _), old before ▸ drawn⟩
  · obtain rfl | before := (Nat.lt_succ_iff.mp there).eq_or_lt
    · obtain ⟨n, less, drawn⟩ := numbered.drawn older lt
      rw [newest, old lt]
      intro same
      rw [same] at drawn
      exact less.ne (numbered.next.inj few (less.trans few) drawn)
    · rw [old before, old (lt.trans before)]
      exact numbered.distinct mb before older lt

theorem ids_proceed {thread : Thread} {now : Int} {throws : Bool}
    (does : state.proceed thread now throws = some after) :
    after.ids = state.ids := by
  have updated {mb : Nat} {mailbox : PlainMailbox Element Notify Object}
      (same : mailbox.messageId = (state.mailbox mb).messageId) :
      { state with
        mailbox := Function.update state.mailbox mb mailbox }.ids =
          state.ids :=
    congrArg (Ids.mk _ _) ((funext (messageId_update same)).trans
      (Function.update_eq_self mb state.ids.of))
  unfold State.proceed at does
  split at does
  case h_2 =>
    split at does
    · cases does
      rfl
    · rename_i registers
      cases does
      obtain ⟨-, -, rfl⟩ := register_ok registers
      rfl
  case h_5 =>
    split at does <;> cases does
    exact updated rfl
  case h_6 =>
    split at does
    · cases does
    · split at does <;> cases does <;> rfl
  case h_7 =>
    split at does
    · cases does
    · rename_i closed
      cases does
      exact updated (closed_closed closed).1
  all_goals cases does <;> rfl

/-- A step makes one number at most. -/
theorem numbered_step (numbered : Numbered first used state.ids)
    (few : used < 2 ^ 64) {action : Action Thread Element}
    (does : step state action = some after) :
    ∃ used' ≤ used + 1, Numbered first used' after.ids := by
  have keeps (same : after.ids = state.ids) :
      ∃ used' ≤ used + 1, Numbered first used' after.ids :=
    ⟨used, Nat.le_succ _, same ▸ numbered⟩
  cases action with
  | proceed thread now throws =>
      dsimp only [step] at does
      split_ifs at does
      exact keeps (ids_proceed does)
  | transportCall thread messageId inReplyTo =>
      dsimp only [step, State.transportCall] at does
      split_ifs at does <;> cases does
      · exact keeps rfl
      · exact keeps rfl
      · exact ⟨_, le_rfl, numbered_create numbered few⟩
  | transportMessage thread messageId =>
      dsimp only [step, State.transportMessage] at does
      split_ifs at does <;> cases does
      · exact keeps rfl
      · refine ⟨_, le_rfl, numbered.next.next, fun mb there => ?_,
          numbered.distinct⟩
        obtain ⟨n, less, drawn⟩ := numbered.drawn mb there
        exact ⟨n, less.trans (Nat.lt_succ_self _), drawn⟩
  | sessionMessage thread inReplyTo element =>
      dsimp only [step, State.sessionMessage] at does
      split_ifs at does
      split at does
      · cases does
        exact keeps rfl
      · split at does <;> cases does <;> exact keeps rfl
  | _ =>
      dsimp only [step] at does
      split_ifs at does
      cases does
      exact keeps rfl

theorem numbered_run (numbered : Numbered first used state.ids)
    {actions : List (Action Thread Element)}
    (few : used + actions.length < 2 ^ 64)
    (runs : run state actions = some after) :
    ∃ used', Numbered first used' after.ids := by
  induction actions generalizing state used with
  | nil =>
      cases runs
      exact ⟨used, numbered⟩
  | cons action actions ih =>
      rw [List.length_cons] at few
      obtain ⟨middle, does, rest⟩ := Option.bind_eq_some_iff.mp runs
      obtain ⟨used', le, numbered⟩ :=
        numbered_step numbered (by omega) does
      exact ih numbered (by omega) rest

end Etch.Java.PlainMailboxManager
