import Etch.Library.Stateful

/-!
# Two computations that agree

Computations over two states, which both may fail, are compared by what they
do from states that are the same: both fail, or both return the same.  The
second one may do what the first one fails at, and go on; it may also do what
is not compared at all.  Both leave a trace in its state, which only grows.
-/

namespace Etch.Library.Simulation

open Etch.Library.Stateful

/-- Both fail, or both return what is related. -/
def Alike {ε φ α β : Type} (relates : α → β → Prop) :
    Except ε α → Except φ β → Prop
  | .ok value, .ok value' => relates value value'
  | .error _, .error _ => True
  | _, _ => False

/-- What two states and their runs are compared by. -/
structure Comparison (σ τ : Type) where
  same : σ → τ → Prop
  /-- The second state has the trace of the first one. -/
  grows : τ → τ → Prop
  refl : ∀ state, grows state state
  trans : ∀ {first second third}, grows first second →
    grows second third → grows first third
  /-- Something was done that the first computation fails at. -/
  strays : τ → Prop
  strays_of_grows : ∀ {before after}, grows before after →
    strays before → strays after
  /-- Something was done that is not compared. -/
  beyond : τ → Prop
  beyond_of_grows : ∀ {before after}, grows before after →
    beyond before → beyond after

/-- Whatever is done is compared. -/
def Comparison.exact {σ τ : Type} (same : σ → τ → Prop) :
    Comparison σ τ where
  same := same
  grows := fun _ _ => True
  refl := fun _ => trivial
  trans := fun _ _ => trivial
  strays := fun _ => False
  strays_of_grows := fun _ => id
  beyond := fun _ => False
  beyond_of_grows := fun _ => id

variable {σ τ ε φ α β γ δ : Type} (c : Comparison σ τ)

/-- A computation whose trace grows. -/
class Grows (n : EStateM φ τ β) : Prop where
  grows : ∀ state, c.grows state (final (n state))

namespace Grows

instance pure (value : β) : Grows c (Pure.pure value : EStateM φ τ β) :=
  ⟨fun state => c.refl state⟩

instance throw (thrown : φ) :
    Grows c (MonadExcept.throw thrown : EStateM φ τ β) :=
  ⟨fun state => c.refl state⟩

instance bind (n : EStateM φ τ β) (rest : β → EStateM φ τ δ)
    [first : Grows c n] [next : ∀ value, Grows c (rest value)] :
    Grows c (n >>= rest) := by
  constructor
  intro state
  have grown := first.grows state
  cases done : n state with
  | ok value middle =>
      rw [bind_ok done]
      rw [done] at grown
      exact c.trans grown ((next value).grows middle)
  | error thrown middle =>
      rw [bind_error done]
      rw [done] at grown
      exact grown

instance ite (condition : Prop) [Decidable condition]
    (n n' : EStateM φ τ β) [first : Grows c n] [second : Grows c n'] :
    Grows c (if condition then n else n') := by
  split
  · exact first
  · exact second

end Grows

/-- What two computations have come to. -/
inductive Outcome (relates : α → β → Prop) :
    EStateM.Result ε σ α → EStateM.Result φ τ β → Prop where
  | returned {value : α} {value' : β} {state : σ} {state' : τ} :
      relates value value' → c.same state state' →
      Outcome relates (.ok value state) (.ok value' state')
  | failed {thrown : ε} {thrown' : φ} {state : σ} {state' : τ} :
      Outcome relates (.error thrown state) (.error thrown' state')
  | strayed {thrown : ε} {value : β} {state : σ} {state' : τ} :
      c.strays state' →
      Outcome relates (.error thrown state) (.ok value state')
  | beyond {result : EStateM.Result ε σ α}
      {result' : EStateM.Result φ τ β} :
      c.beyond (final result') → Outcome relates result result'

/-- From the same states, the computations come to the same. -/
def Simulates (relates : α → β → Prop) (m : EStateM ε σ α)
    (n : EStateM φ τ β) : Prop :=
  ∀ state state', c.same state state' →
    Outcome c relates (m state) (n state')

namespace Simulates

variable {c} {relates : α → β → Prop} {relates' : γ → δ → Prop}
  {m : EStateM ε σ α} {n : EStateM φ τ β}

theorem pure {value : α} {value' : β} (related : relates value value') :
    Simulates c relates (Pure.pure value : EStateM ε σ α)
      (Pure.pure value' : EStateM φ τ β) :=
  fun _ _ same => .returned related same

theorem throw (thrown : ε) (thrown' : φ) :
    Simulates c relates (MonadExcept.throw thrown : EStateM ε σ α)
      (MonadExcept.throw thrown' : EStateM φ τ β) :=
  fun _ _ _ => .failed

theorem bind {rest : α → EStateM ε σ γ} {rest' : β → EStateM φ τ δ}
    [grows : ∀ value, Grows c (rest' value)]
    (first : Simulates c relates m n)
    (next : ∀ value value', relates value value' →
      Simulates c relates' (rest value) (rest' value')) :
    Simulates c relates' (m >>= rest) (n >>= rest') := by
  intro state state' same
  have outcome := first state state' same
  generalize done : m state = result at outcome
  generalize done' : n state' = result' at outcome
  cases outcome with
  | returned related same =>
      rw [bind_ok done, bind_ok done']
      exact next _ _ related _ _ same
  | failed =>
      rw [bind_error done, bind_error done']
      exact .failed
  | @strayed thrown value middle middle' strays =>
      rw [bind_error done, bind_ok done']
      have grown := (grows value).grows middle'
      cases later : rest' value middle' with
      | ok value' after =>
          rw [later] at grown
          exact .strayed (c.strays_of_grows grown strays)
      | error thrown' after => exact .failed
  | beyond beyond =>
      refine .beyond ?_
      cases result' with
      | ok value middle =>
          rw [bind_ok done']
          exact c.beyond_of_grows ((grows value).grows middle) beyond
      | error thrown middle =>
          rw [bind_error done']
          exact beyond

/-- The second computation does something more. -/
theorem bind_right {meets : β → Prop} {m : EStateM ε σ γ}
    {rest' : β → EStateM φ τ δ}
    [grows : ∀ value, Grows c (rest' value)]
    (first : Simulates c (fun _ value' => meets value')
      (Pure.pure () : EStateM ε σ Unit) n)
    (next : ∀ value', meets value' →
      Simulates c relates' m (rest' value')) :
    Simulates c relates' m (n >>= rest') := by
  have both : Simulates c relates'
      ((Pure.pure () : EStateM ε σ Unit) >>= fun _ => m) (n >>= rest') :=
    first.bind fun _ => next
  exact both

/-- The first computation changes what it returns. -/
theorem bind_pure {f : α → γ} {relates' : γ → β → Prop}
    (first : Simulates c relates m n)
    (next : ∀ value value', relates value value' →
      relates' (f value) value') :
    Simulates c relates' (m >>= fun value => Pure.pure (f value)) n := by
  intro state state' same
  have outcome := first state state' same
  generalize done : m state = result at outcome
  generalize n state' = result' at outcome ⊢
  cases outcome with
  | returned related same =>
      rw [bind_ok done]
      exact .returned (next _ _ related) same
  | failed =>
      rw [bind_error done]
      exact .failed
  | strayed strays =>
      rw [bind_error done]
      exact .strayed strays
  | beyond beyond => exact .beyond beyond

theorem ite {condition condition' : Prop} [Decidable condition]
    [Decidable condition'] {m' : EStateM ε σ α} {n' : EStateM φ τ β}
    (same : condition ↔ condition')
    (first : condition → Simulates c relates m n)
    (second : ¬ condition → Simulates c relates m' n') :
    Simulates c relates (if condition then m else m')
      (if condition' then n else n') := by
  by_cases holds : condition
  · rw [if_pos holds, if_pos (same.mp holds)]
    exact first holds
  · rw [if_neg holds, if_neg (mt same.mpr holds)]
    exact second holds

end Simulates

end Etch.Library.Simulation
