/-!
# Computations that may fail

Binding in `Except`, so that a sequence of calls is taken apart one call at a
time.
-/

namespace Etch.Library.Fallible

variable {ε α β : Type}

@[simp]
theorem ok_bind (value : α) (rest : α → Except ε β) :
    (Except.ok value >>= rest) = rest value := rfl

@[simp]
theorem error_bind (exception : ε) (rest : α → Except ε β) :
    (Except.error exception >>= rest) = .error exception := rfl

/-- A sequence succeeds when each of its parts does. -/
theorem bind_eq_ok_iff {first : Except ε α} {rest : α → Except ε β}
    {result : β} :
    (first >>= rest) = .ok result ↔
      ∃ value, first = .ok value ∧ rest value = .ok result := by
  cases first with
  | error exception => simp
  | ok value => simp

end Etch.Library.Fallible
