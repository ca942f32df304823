import Etch.Library.Monitor

/-!
# Systems that act

A system whose actions are enabled in some of its states and lead to one state
each.  A run is a sequence of actions; a step may be restricted to the actions
that are allowed where they are taken.
-/

namespace Etch.Library.Transition

variable {State Action : Type*}

/-- A step by an action that is allowed. -/
def StepBy (step : State → Action → Option State)
    (allowed : State → Action → Prop) (state next : State) : Prop :=
  ∃ action, allowed state action ∧ step state action = some next

/-- A step by any action. -/
def Step (step : State → Action → Option State) : State → State → Prop :=
  StepBy step fun _ _ => True

/-- The state after a sequence of actions, none if one is not enabled. -/
def run (step : State → Action → Option State) (state : State) :
    List Action → Option State
  | [] => some state
  | action :: actions => do
      let next ← step state action
      run step next actions

variable {step : State → Action → Option State}
  {allowed : State → Action → Prop}

/-- What every allowed step keeps holds in every state reached by them. -/
theorem invariant_of_steps (invariant : State → Prop)
    (keeps : ∀ state action next, invariant state → allowed state action →
      step state action = some next → invariant next)
    {state final : State}
    (reaches : Relation.ReflTransGen (StepBy step allowed) state final)
    (holds : invariant state) : invariant final := by
  refine Monitor.invariant_of_reaches invariant ?_ reaches holds
  rintro state next holds ⟨action, may, does⟩
  exact keeps state action next holds may does

theorem reaches_of_allowed {may : Action → Prop} {actions : List Action}
    {state final : State} (runs : run step state actions = some final)
    (each : ∀ action ∈ actions, may action) :
    Relation.ReflTransGen (StepBy step fun _ => may) state final := by
  induction actions generalizing state with
  | nil =>
      obtain rfl := Option.some.inj runs
      exact .refl
  | cons action actions ih =>
      obtain ⟨next, first, rest⟩ := Option.bind_eq_some_iff.mp runs
      exact .head ⟨action, each action List.mem_cons_self, first⟩
        (ih rest fun other member => each other (.tail _ member))

theorem reaches_of_run {actions : List Action} {state final : State}
    (runs : run step state actions = some final) :
    Relation.ReflTransGen (Step step) state final :=
  reaches_of_allowed runs fun _ _ => trivial

/-- What every step keeps holds after a run. -/
theorem invariant_of_run (invariant : State → Prop)
    (keeps : ∀ state action next, invariant state →
      step state action = some next → invariant next)
    {actions : List Action} {state final : State}
    (runs : run step state actions = some final) (holds : invariant state) :
    invariant final :=
  invariant_of_steps invariant
    (fun state action next holds _ => keeps state action next holds)
    (reaches_of_run runs) holds

/-! ## Runs of allowed actions -/

/-- Each action is allowed where it is taken. -/
def Allowed (step : State → Action → Option State)
    (allowed : State → Action → Prop) : State → List Action → Prop
  | _, [] => True
  | state, action :: actions => allowed state action ∧
      ∀ next, step state action = some next →
        Allowed step allowed next actions

/-- What every allowed step keeps holds after a run of them. -/
theorem invariant_of_allowed (invariant : State → Prop)
    (keeps : ∀ state action next, invariant state → allowed state action →
      step state action = some next → invariant next)
    {actions : List Action} {state final : State}
    (runs : run step state actions = some final)
    (may : Allowed step allowed state actions)
    (holds : invariant state) : invariant final := by
  induction actions generalizing state with
  | nil =>
      obtain rfl := Option.some.inj runs
      exact holds
  | cons action actions ih =>
      obtain ⟨next, first, rest⟩ := Option.bind_eq_some_iff.mp runs
      exact ih rest (may.2 next first) (keeps state action next holds may.1 first)

/-- A run is one of allowed actions if one that is not shows at its end. -/
theorem allowed_of_shows (shows : State → Prop)
    (first : ∀ state action next, ¬ allowed state action →
      step state action = some next → shows next)
    (keeps : ∀ state action next, shows state →
      step state action = some next → shows next)
    {actions : List Action} {state final : State}
    (runs : run step state actions = some final) (hidden : ¬ shows final) :
    Allowed step allowed state actions := by
  induction actions generalizing state with
  | nil => trivial
  | cons action actions ih =>
      obtain ⟨next, does, rest⟩ := Option.bind_eq_some_iff.mp runs
      refine ⟨?_, fun next' does' => ?_⟩
      · refine Classical.byContradiction fun not => ?_
        exact hidden
          (invariant_of_run shows keeps rest (first state action next not does))
      · cases does.symm.trans does'
        exact ih rest

end Etch.Library.Transition
