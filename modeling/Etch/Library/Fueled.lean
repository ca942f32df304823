import Mathlib.Order.Basic
import Mathlib.Data.Nat.Basic

/-!
# Computations with fuel

A computation that is given a number of rounds either settles on a result,
whatever the number is from some point on, or stalls.  Computations may throw;
the rules are those of their sequential composition.
-/

namespace Etch.Library.Fueled

universe u v

variable {Thrown Result Next : Type u} {Item : Type v}

/-- Enough fuel gives the result. -/
def Settles (run : Nat → Option Result) (result : Result) : Prop :=
  ∃ fuel, ∀ more, fuel ≤ more → run more = some result

/-- No fuel is enough. -/
def Stalls (run : Nat → Option Result) : Prop :=
  ∃ fuel, ∀ more, fuel ≤ more → run more = none

theorem Settles.unique {run : Nat → Option Result} {first second : Result}
    (settles : Settles run first) (settles' : Settles run second) :
    first = second := by
  obtain ⟨fuel, done⟩ := settles
  obtain ⟨fuel', done'⟩ := settles'
  have common := done _ (Nat.le_max_left fuel fuel')
  rw [done' _ (Nat.le_max_right fuel fuel')] at common
  exact (Option.some.inj common).symm

theorem Settles.not_stalls {run : Nat → Option Result} {result : Result}
    (settles : Settles run result) : ¬Stalls run := by
  rintro ⟨fuel', stalled⟩
  obtain ⟨fuel, done⟩ := settles
  have common := done _ (Nat.le_max_left fuel fuel')
  rw [stalled _ (Nat.le_max_right fuel fuel')] at common
  contradiction

theorem Settles.const (result : Result) :
    Settles (fun _ => some result) result :=
  ⟨0, fun _ _ => rfl⟩

theorem Settles.succ {run : Nat → Option Result} {result : Result}
    (settles : Settles (fun fuel => run (fuel + 1)) result) :
    Settles run result := by
  obtain ⟨fuel, done⟩ := settles
  refine ⟨fuel + 1, fun more order => ?_⟩
  obtain ⟨rest, rfl⟩ := Nat.exists_eq_add_of_le order
  rw [Nat.add_right_comm]
  exact done _ (Nat.le_add_right _ _)

/-! ## Sequences -/

section Bind

variable {first : Nat → ExceptT Thrown Option Result}
  {rest : Nat → Result → ExceptT Thrown Option Next}

theorem bind_of_settles {result : Result}
    (settles : Settles first (.ok result)) :
    ∃ fuel, ∀ more, fuel ≤ more →
      (first more >>= rest more) = rest more result := by
  obtain ⟨fuel, done⟩ := settles
  refine ⟨fuel, fun more order => ?_⟩
  show Option.bind (first more) _ = _
  rw [done more order]
  rfl

/-- A sequence succeeds when each of its parts does. -/
theorem bind_eq_ok_iff {first : ExceptT Thrown Option Result}
    {rest : Result → ExceptT Thrown Option Next} {final : Next} :
    (first >>= rest) = ExceptT.mk (some (.ok final)) ↔
      ∃ result, first = ExceptT.mk (some (.ok result)) ∧
        rest result = ExceptT.mk (some (.ok final)) := by
  match first with
  | none => exact iff_of_false nofun nofun
  | some (.error thrown) => exact iff_of_false nofun nofun
  | some (.ok result) =>
      constructor
      · exact fun done => ⟨result, rfl, done⟩
      · rintro ⟨_, same, done⟩
        cases same
        exact done

theorem Settles.bind {result : Result} {final : Except Thrown Next}
    (settles : Settles first (.ok result))
    (settles' : Settles (fun fuel => rest fuel result) final) :
    Settles (fun fuel =>
      (first fuel >>= rest fuel : ExceptT Thrown Option Next)) final := by
  obtain ⟨fuel, same⟩ := bind_of_settles settles
  obtain ⟨fuel', done⟩ := settles'
  refine ⟨max fuel fuel', fun more order => ?_⟩
  show (first more >>= rest more) = _
  rw [same more ((Nat.le_max_left _ _).trans order)]
  exact done more ((Nat.le_max_right _ _).trans order)

theorem Settles.bind_error {thrown : Thrown}
    (settles : Settles first (.error thrown)) :
    Settles (fun fuel =>
      (first fuel >>= rest fuel : ExceptT Thrown Option Next))
        (.error thrown) := by
  obtain ⟨fuel, done⟩ := settles
  refine ⟨fuel, fun more order => ?_⟩
  show Option.bind (first more) _ = _
  rw [done more order]
  rfl

theorem Stalls.bind (stalls : Stalls first) :
    Stalls (fun fuel =>
      (first fuel >>= rest fuel : ExceptT Thrown Option Next)) := by
  obtain ⟨fuel, stalled⟩ := stalls
  refine ⟨fuel, fun more order => ?_⟩
  show Option.bind (first more) _ = _
  rw [stalled more order]
  rfl

theorem Stalls.bind_rest {result : Result}
    (settles : Settles first (.ok result))
    (stalls : Stalls (fun fuel => rest fuel result)) :
    Stalls (fun fuel =>
      (first fuel >>= rest fuel : ExceptT Thrown Option Next)) := by
  obtain ⟨fuel, same⟩ := bind_of_settles settles
  obtain ⟨fuel', stalled⟩ := stalls
  refine ⟨max fuel fuel', fun more order => ?_⟩
  show (first more >>= rest more) = _
  rw [same more ((Nat.le_max_left _ _).trans order)]
  exact stalled more ((Nat.le_max_right _ _).trans order)

end Bind

section Items

variable {each : Nat → Item → ExceptT Thrown Option PUnit}

theorem forM_settles_ok {items : List Item}
    (settles : ∀ item ∈ items, Settles (fun fuel => each fuel item)
      (.ok ⟨⟩)) :
    Settles (fun fuel =>
      (items.forM (each fuel) : ExceptT Thrown Option PUnit))
        (.ok ⟨⟩) := by
  induction items with
  | nil => exact .const _
  | cons item items ih =>
      exact (settles item (.head _)).bind
        (ih fun other member => settles other (.tail _ member))

theorem forM_ok {each : Item → ExceptT Thrown Option PUnit}
    {items : List Item}
    (done : (items.forM each : ExceptT Thrown Option PUnit) =
      ExceptT.mk (some (.ok ⟨⟩))) :
    ∀ item ∈ items, each item = ExceptT.mk (some (.ok ⟨⟩)) := by
  induction items with
  | nil => exact nofun
  | cons item items ih =>
      obtain ⟨_, first, rest⟩ := bind_eq_ok_iff.mp done
      exact List.forall_mem_cons.mpr ⟨first, ih rest⟩

theorem forM_settles_error {before after : List Item} {item : Item}
    {thrown : Thrown}
    (settles : ∀ other ∈ before, Settles (fun fuel => each fuel other)
      (.ok ⟨⟩))
    (fails : Settles (fun fuel => each fuel item) (.error thrown)) :
    Settles (fun fuel => ((before ++ item :: after).forM (each fuel) :
      ExceptT Thrown Option PUnit)) (.error thrown) := by
  induction before with
  | nil => exact fails.bind_error
  | cons first before ih =>
      exact (settles first (.head _)).bind
        (ih fun other member => settles other (.tail _ member))

theorem forM_stalls {before after : List Item} {item : Item}
    (settles : ∀ other ∈ before, Settles (fun fuel => each fuel other)
      (.ok ⟨⟩))
    (stalls : Stalls (fun fuel => each fuel item)) :
    Stalls (fun fuel => ((before ++ item :: after).forM (each fuel) :
      ExceptT Thrown Option PUnit)) := by
  induction before with
  | nil => exact stalls.bind
  | cons first before ih =>
      exact .bind_rest (settles first (.head _))
        (ih fun other member => settles other (.tail _ member))

/-- Either all items have a property or there is a first one without it. -/
theorem all_or_first (property : Item → Prop) (items : List Item) :
    (∀ item ∈ items, property item) ∨
      ∃ before item after, items = before ++ item :: after ∧
        (∀ other ∈ before, property other) ∧ ¬property item := by
  induction items with
  | nil => exact .inl nofun
  | cons first items ih =>
      by_cases holds : property first
      · rcases ih with all | ⟨before, item, after, rfl, all, fails⟩
        · exact .inl (List.forall_mem_cons.mpr ⟨holds, all⟩)
        · exact .inr ⟨first :: before, item, after, rfl,
            List.forall_mem_cons.mpr ⟨holds, all⟩, fails⟩
      · exact .inr ⟨[], first, items, rfl, nofun, holds⟩

end Items

/-! ## One answer -/

/-- With enough fuel there is an answer, and with any fuel no other one. -/
structure Returns (run : Nat → Option Result) (answer : Result) : Prop where
  reached : ∃ fuel, run fuel = some answer
  only : ∀ fuel other, run fuel = some other → other = answer

theorem Returns.bind {α β : Type} {run : Nat → Option α} {answer : α}
    (returns : Returns run answer) {rest : α → Option β} {result : β}
    (done : rest answer = some result) :
    Returns (fun fuel => run fuel >>= rest) result where
  reached := by
    obtain ⟨fuel, here⟩ := returns.reached
    exact ⟨fuel, Option.bind_eq_some_iff.mpr ⟨answer, here, done⟩⟩
  only := by
    intro fuel other came
    obtain ⟨between, here, there⟩ := Option.bind_eq_some_iff.mp came
    rw [returns.only fuel between here, done] at there
    exact (Option.some.inj there).symm

/-- What is done with one step less. -/
theorem Returns.later {α : Type} {run run' : Nat → Option α} {answer : α}
    (returns : Returns run answer) (first : run' 0 = none)
    (next : ∀ fuel, run' (fuel + 1) = run fuel) : Returns run' answer where
  reached := by
    obtain ⟨fuel, here⟩ := returns.reached
    exact ⟨fuel + 1, (next fuel).trans here⟩
  only := by
    intro fuel other came
    cases fuel with
    | zero => exact nomatch first.symm.trans came
    | succ fuel => exact returns.only fuel other ((next fuel).symm.trans came)

/-- A run that one step more does not change. -/
theorem Returns.of_mono {run : Nat → Option Result}
    (mono : ∀ fuel answer, run fuel = some answer →
      run (fuel + 1) = some answer)
    {fuel : Nat} {answer : Result} (came : run fuel = some answer) :
    Returns run answer where
  reached := ⟨fuel, came⟩
  only := by
    have later (fuel : Nat) (answer : Result) (came : run fuel = some answer)
        (more : Nat) : run (fuel + more) = some answer := by
      induction more with
      | zero => exact came
      | succ more ih => exact mono _ _ ih
    intro fuel' other came'
    have both := later fuel answer came fuel'
    rw [Nat.add_comm, later fuel' other came' fuel] at both
    exact Option.some.inj both

theorem Returns.const {α : Type} (answer : α) :
    Returns (fun _ => some answer) answer :=
  ⟨⟨0, rfl⟩, fun _ _ same => (Option.some.inj same).symm⟩

end Etch.Library.Fueled
