import Mathlib.Data.Nat.Basic

/-!
# Loops with an explicit body

A `while (true)` loop of an imperative program is a body that maps a state
either to a next state or to the value the loop is left with.  `run` goes
round at most `fuel` times.  The rules are the usual ones: an invariant with
a decreasing measure gives termination together with the exit condition, and
an invariant whose states never leave gives divergence.
-/

namespace Etch.Library.Loop

variable {State Result : Type*}

/-- One pass over a loop body. -/
inductive Pass (State Result : Type*) where
  | again (state : State)
  | leave (result : Result)

/-- Go round the loop at most `fuel` times. -/
def run (body : State → Pass State Result) : Nat → State → Option Result
  | 0, _ => none
  | fuel + 1, state =>
      match body state with
      | .again next => run body fuel next
      | .leave result => some result

/-- The loop is left with `result` after finitely many passes. -/
def Returns (body : State → Pass State Result)
    (state : State) (result : Result) : Prop :=
  ∃ fuel, run body fuel state = some result

/-- The loop goes round for ever. -/
def Diverges (body : State → Pass State Result) (state : State) : Prop :=
  ∀ fuel, run body fuel state = none

/-- The states at which a pass over the loop body starts. -/
inductive Reaches (body : State → Pass State Result) :
    State → State → Prop where
  | refl (state : State) : Reaches body state state
  | next {state middle final : State} (round : body state = .again middle)
      (rest : Reaches body middle final) : Reaches body state final

/-- Every pass that goes round decreases `measure`. -/
def Descends (body : State → Pass State Result) (measure : State → Nat)
    (state : State) : Prop :=
  ∀ reached next, Reaches body state reached →
    body reached = .again next → measure next < measure reached

section Rules

variable {body : State → Pass State Result}

theorem run_leave {state : State} {result : Result}
    (left : body state = .leave result) (fuel : Nat) :
    run body (fuel + 1) state = some result := by
  simp [run, left]

theorem run_again {state next : State}
    (round : body state = .again next) (fuel : Nat) :
    run body (fuel + 1) state = run body fuel next := by
  simp [run, round]

/-- More fuel never changes an answer. -/
theorem run_mono {fuel more : Nat} {state : State} {result : Result}
    (order : fuel ≤ more) (done : run body fuel state = some result) :
    run body more state = some result := by
  induction fuel generalizing more state with
  | zero => simp [run] at done
  | succ fuel ih =>
      cases more with
      | zero => omega
      | succ more =>
          cases pass : body state with
          | again next =>
              rw [run_again pass] at done ⊢
              exact ih (by omega) done
          | leave left =>
              rw [run_leave pass] at done ⊢
              exact done

theorem Returns.leave {state : State} {result : Result}
    (left : body state = .leave result) : Returns body state result :=
  ⟨1, run_leave left 0⟩

theorem Returns.again {state next : State} {result : Result}
    (round : body state = .again next) (rest : Returns body next result) :
    Returns body state result := by
  obtain ⟨fuel, done⟩ := rest
  exact ⟨fuel + 1, by rw [run_again round, done]⟩

theorem returns_again_iff {state next : State} {result : Result}
    (round : body state = .again next) :
    Returns body state result ↔ Returns body next result := by
  constructor
  · rintro ⟨fuel, done⟩
    cases fuel with
    | zero => simp [run] at done
    | succ fuel => exact ⟨fuel, by rwa [run_again round] at done⟩
  · exact .again round

/-- A loop is left with one value only. -/
theorem Returns.unique {state : State} {left right : Result}
    (first : Returns body state left) (second : Returns body state right) :
    left = right := by
  obtain ⟨fuel, done⟩ := first
  obtain ⟨more, done'⟩ := second
  have common := run_mono (Nat.le_max_left fuel more) done
  rw [run_mono (Nat.le_max_right fuel more) done'] at common
  exact (Option.some.inj common).symm

/--
Total correctness: an invariant kept by every pass that goes round, with a
measure every such pass decreases, and a condition every pass that leaves
establishes.
-/
theorem run_of_measure (invariant : State → Prop) (post : Result → Prop)
    (measure : State → Nat)
    (keeps : ∀ state next, invariant state → body state = .again next →
      invariant next ∧ measure next < measure state)
    (leaves : ∀ state result, invariant state →
      body state = .leave result → post result)
    {fuel : Nat} {state : State} (holds : invariant state)
    (enough : measure state < fuel) :
    ∃ result, run body fuel state = some result ∧ post result := by
  induction fuel generalizing state with
  | zero => omega
  | succ fuel ih =>
      cases pass : body state with
      | again next =>
          obtain ⟨kept, smaller⟩ := keeps state next holds pass
          rw [run_again pass]
          exact ih kept (by omega)
      | leave result =>
          exact ⟨result, run_leave pass fuel,
            leaves state result holds pass⟩

theorem returns_of_measure (invariant : State → Prop)
    (post : Result → Prop) (measure : State → Nat)
    (keeps : ∀ state next, invariant state → body state = .again next →
      invariant next ∧ measure next < measure state)
    (leaves : ∀ state result, invariant state →
      body state = .leave result → post result)
    {state : State} (holds : invariant state) :
    ∃ result, Returns body state result ∧ post result := by
  obtain ⟨result, done, established⟩ :=
    run_of_measure invariant post measure keeps leaves holds
      (Nat.lt_succ_self _)
  exact ⟨result, ⟨_, done⟩, established⟩

/-- States from which every pass goes round are never left. -/
theorem diverges_of_invariant (invariant : State → Prop)
    (round : ∀ state, invariant state →
      ∃ next, body state = .again next ∧ invariant next)
    {state : State} (holds : invariant state) : Diverges body state := by
  intro fuel
  induction fuel generalizing state with
  | zero => rfl
  | succ fuel ih =>
      obtain ⟨next, pass, kept⟩ := round state holds
      rw [run_again pass]
      exact ih kept

theorem Reaches.invariant (invariant : State → Prop)
    (keeps : ∀ state next, invariant state → body state = .again next →
      invariant next)
    {state final : State} (reaches : Reaches body state final)
    (holds : invariant state) : invariant final := by
  induction reaches with
  | refl => exact holds
  | next round _ ih => exact ih (keeps _ _ holds round)

/-- Partial correctness: an invariant holds when the loop is left. -/
theorem Returns.of_invariant (invariant : State → Prop)
    (post : Result → Prop)
    (keeps : ∀ state next, invariant state → body state = .again next →
      invariant next)
    (leaves : ∀ state result, invariant state →
      body state = .leave result → post result)
    {state : State} {result : Result}
    (returns : Returns body state result) (holds : invariant state) :
    post result := by
  obtain ⟨fuel, done⟩ := returns
  induction fuel generalizing state with
  | zero => exact nomatch done
  | succ fuel ih =>
      cases pass : body state with
      | again next =>
          rw [run_again pass] at done
          exact ih (keeps _ _ holds pass) done
      | leave left =>
          rw [run_leave pass] at done
          obtain rfl := Option.some.inj done
          exact leaves _ _ holds pass

theorem Diverges.not_returns {state : State} {result : Result}
    (forever : Diverges body state) : ¬ Returns body state result := by
  rintro ⟨fuel, done⟩
  rw [forever fuel] at done
  exact nomatch done

end Rules

section While

variable {Failure : Type*}

/-- The body of `while (guard) round`, whose rounds may fail. -/
def whilePass (guard : State → Bool)
    (round : State → Except Failure State) (state : State) :
    Pass State (Except Failure State) :=
  if guard state then
    match round state with
    | .ok next => .again next
    | .error failure => .leave (.error failure)
  else
    .leave (.ok state)

section Steps

variable {guard : State → Bool} {round : State → Except Failure State}
  {state : State}

theorem run_while_exit (test : guard state = false) (fuel : Nat) :
    run (whilePass guard round) (fuel + 1) state = some (.ok state) :=
  run_leave (by simp [whilePass, test]) fuel

theorem run_while_round {next : State} (test : guard state = true)
    (done : round state = .ok next) (fuel : Nat) :
    run (whilePass guard round) (fuel + 1) state =
      run (whilePass guard round) fuel next :=
  run_again (by simp [whilePass, test, done]) fuel

theorem run_while_error {failure : Failure} (test : guard state = true)
    (failed : round state = .error failure) (fuel : Nat) :
    run (whilePass guard round) (fuel + 1) state =
      some (.error failure) :=
  run_leave (by simp [whilePass, test, failed]) fuel

end Steps

/-- Total correctness of a `while` loop none of whose rounds fails. -/
theorem run_while {guard : State → Bool}
    {round : State → Except Failure State} (invariant : State → Prop)
    (measure : State → Nat)
    (keeps : ∀ state, invariant state → guard state = true →
      ∃ next, round state = .ok next ∧ invariant next ∧
        measure next < measure state)
    {fuel : Nat} {state : State} (holds : invariant state)
    (enough : measure state < fuel) :
    ∃ final, run (whilePass guard round) fuel state = some (.ok final) ∧
      invariant final ∧ guard final = false := by
  induction fuel generalizing state with
  | zero => omega
  | succ fuel ih =>
      cases test : guard state with
      | true =>
          obtain ⟨next, done, kept, smaller⟩ := keeps state holds test
          rw [run_while_round test done]
          exact ih kept (by omega)
      | false => exact ⟨state, run_while_exit test fuel, holds, test⟩

end While

end Etch.Library.Loop
