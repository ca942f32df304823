import Mathlib.Data.List.Induction

/-!
# Sequences of actions that do their part

Each action of a sequence has something to meet in the state where it is
taken.  Where an invariant follows from what has been met before, a condition
that is exact for one action is exact for the whole sequence.
-/

namespace Etch.Library.Contract

variable {State Action : Type*}

/-- The state after a sequence of actions. -/
def after (step : State → Action → State) (start : State)
    (actions : List Action) : State :=
  actions.foldl step start

/-- What holds of each action of a sequence, where it is taken. -/
def Each (step : State → Action → State) (start : State)
    (holds : State → Action → Prop) (actions : List Action) : Prop :=
  ∀ before action, before ++ [action] <+: actions →
    holds (after step start before) action

variable {step : State → Action → State} {start : State}
  {invariant : State → Prop} {holds holds' : State → Action → Prop}
  {actions : List Action}

theorem after_append (before : List Action) (action : Action) :
    after step start (before ++ [action]) =
      step (after step start before) action := by
  unfold after
  rw [List.foldl_append]
  rfl

theorem Each.of_prefix {before : List Action}
    (each : Each step start holds actions) (earlier : before <+: actions) :
    Each step start holds before :=
  fun first action within => each first action (within.trans earlier)

/-- The invariant that follows from what each action meets. -/
theorem Each.invariant_after (each : Each step start holds actions)
    (starts : invariant start)
    (keeps : ∀ state action, invariant state → holds state action →
      invariant (step state action)) :
    invariant (after step start actions) := by
  induction actions using List.reverseRecOn with
  | nil => exact starts
  | append_singleton before action ih =>
      rw [after_append]
      exact keeps _ action
        (ih (each.of_prefix (List.prefix_append before [action])))
        (each before action (List.prefix_refl _))

/-- A condition on each action is enough, if it is where the invariant
holds. -/
theorem Each.mono (each : Each step start holds actions)
    (starts : invariant start)
    (keeps : ∀ state action, invariant state → holds state action →
      invariant (step state action))
    (implies : ∀ state action, invariant state → holds state action →
      holds' state action) :
    Each step start holds' actions := by
  intro before action within
  have earlier := (List.prefix_append before [action]).trans within
  exact implies _ action ((each.of_prefix earlier).invariant_after starts keeps)
    (each before action within)

/-- Two conditions that are the same where the invariant holds, which either
of them keeps. -/
theorem each_iff (starts : invariant start)
    (keeps : ∀ state action, invariant state → holds state action →
      invariant (step state action))
    (exact : ∀ state action, invariant state →
      (holds state action ↔ holds' state action)) :
    Each step start holds actions ↔ Each step start holds' actions := by
  constructor
  · intro each
    exact each.mono starts keeps
      fun state action holds => (exact state action holds).mp
  · intro each
    exact each.mono starts
      (fun state action holds does =>
        keeps state action holds ((exact state action holds).mpr does))
      fun state action holds => (exact state action holds).mpr

end Etch.Library.Contract
