import Etch.Library.Stateful

/-!
# Computations up to what they throw

`erase` forgets which exception a computation throws and keeps what it returns
and the state it leaves.  Two ports of one program throw exceptions of their
own types, so they are compared by their erasures; the rules below follow the
way a computation is put together.
-/

namespace Etch.Library.Erasure

open Etch.Library.Stateful

variable {σ ε φ α β : Type}

/-- What a computation has returned, or that it has failed, and the state. -/
def result : EStateM.Result ε σ α → Option α × σ
  | .ok value after => (some value, after)
  | .error _ after => (none, after)

def erase (m : EStateM ε σ α) (state : σ) : Option α × σ :=
  result (m state)

theorem erase_ok {m : EStateM ε σ α} {state after : σ} {value : α}
    (done : m state = .ok value after) :
    erase m state = (some value, after) := by
  rw [erase, done, result]

theorem erase_error {m : EStateM ε σ α} {state after : σ} {thrown : ε}
    (done : m state = .error thrown after) :
    erase m state = (none, after) := by
  rw [erase, done, result]

theorem erase_bind (m : EStateM ε σ α) (rest : α → EStateM ε σ β)
    (state : σ) :
    erase (m >>= rest) state =
      match erase m state with
      | (some value, middle) => erase (rest value) middle
      | (none, middle) => (none, middle) := by
  cases done : m state with
  | ok value middle =>
      rw [erase_ok done]
      simp only [erase, bind_ok done]
  | error thrown middle =>
      rw [erase_error done]
      simp only [erase, bind_error done, result]

/-! ## Computations that come to the same -/

/-- From every state both fail, or both return the same, in the same state. -/
def Same (m : EStateM ε σ α) (n : EStateM φ σ α) : Prop :=
  ∀ state, erase m state = erase n state

namespace Same

variable {m : EStateM ε σ α} {n : EStateM φ σ α}

theorem pure (value : α) :
    Same (Pure.pure value : EStateM ε σ α)
      (Pure.pure value : EStateM φ σ α) :=
  fun _ => rfl

theorem throw (thrown : ε) (thrown' : φ) :
    Same (MonadExcept.throw thrown : EStateM ε σ α)
      (MonadExcept.throw thrown' : EStateM φ σ α) :=
  fun _ => rfl

/-- The computations that come next are compared in one state. -/
theorem bind_at {rest : α → EStateM ε σ β} {rest' : α → EStateM φ σ β}
    {state : σ} (first : erase m state = erase n state)
    (next : ∀ value middle, erase m state = (some value, middle) →
      erase (rest value) middle = erase (rest' value) middle) :
    erase (m >>= rest) state = erase (n >>= rest') state := by
  rw [erase_bind, erase_bind, ← first]
  cases done : erase m state with
  | mk value middle =>
      cases value with
      | none => rfl
      | some value => exact next value middle done

theorem bind {rest : α → EStateM ε σ β} {rest' : α → EStateM φ σ β}
    (first : Same m n) (next : ∀ value, Same (rest value) (rest' value)) :
    Same (m >>= rest) (n >>= rest') :=
  fun state => bind_at (first state) fun value middle _ => next value middle

theorem map (first : Same m n) (f : α → β) :
    Same (m >>= fun value => Pure.pure (f value))
      (n >>= fun value => Pure.pure (f value)) :=
  first.bind fun value => .pure (f value)

theorem ite {condition : Prop} [Decidable condition]
    {m' : EStateM ε σ α} {n' : EStateM φ σ α} (first : Same m n)
    (second : Same m' n') :
    Same (if condition then m else m') (if condition then n else n') := by
  split
  · exact first
  · exact second

theorem dite {condition condition' : Prop} [Decidable condition]
    [Decidable condition'] (same : condition ↔ condition')
    {m : condition → EStateM ε σ α} {n : condition' → EStateM φ σ α}
    {m' : ¬ condition → EStateM ε σ α} {n' : ¬ condition' → EStateM φ σ α}
    (first : ∀ holds holds', Same (m holds) (n holds'))
    (second : ∀ fails fails', Same (m' fails) (n' fails')) :
    Same (if holds : condition then m holds else m' holds)
      (if holds : condition' then n holds else n' holds) := by
  by_cases holds : condition
  · rw [dif_pos holds, dif_pos (same.mp holds)]
    exact first _ _
  · rw [dif_neg holds, dif_neg (holds ∘ same.mpr)]
    exact second _ _

end Same

end Etch.Library.Erasure
