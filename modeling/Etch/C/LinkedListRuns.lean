import Etch.C.LinkedListCalls
import Mathlib.Data.List.InsertIdx

/-!
# Runs of the C `etch_linked_list`

A run of calls acts on the chain as on the list of the data as long as the
count and the counter of a search fit, and nobody asks for the index of
`NULL`, which is answered with the number of a status.
-/

namespace Etch.C.EtchLinkedList

open Etch.Library.Loop
open Etch.Library.Linked

variable {D : Type} [DecidableEq D]

/-- What a call is to return for the data, and the data afterwards. -/
def effect (data : List D) : Call D → Result D × List D
  | .add none => (.status .ETCH_EINVAL, data)
  | .add (some value) => (.status .ETCH_SUCCESS, data ++ [value])
  | .insert _ none => (.status .ETCH_EINVAL, data)
  | .insert index (some value) =>
      if Inside data index then
        (.status .ETCH_SUCCESS, data.insertIdx index.toInt.toNat value)
      else (.status .ETCH_EOUTOFBOUNDS, data)
  | .removeAt index =>
      if Inside data index then
        (.status .ETCH_SUCCESS, data.eraseIdx index.toInt.toNat)
      else (.status .ETCH_EOUTOFBOUNDS, data)
  | .remove none => (.status .ETCH_EINVAL, data)
  | .remove (some value) =>
      if value ∈ data then (.status .ETCH_SUCCESS, data.erase value)
      else (.status .ETCH_EOUTOFBOUNDS, data)
  | .clear => (.status .ETCH_SUCCESS, [])
  | .get index =>
      if Inside data index then
        (.got .ETCH_SUCCESS data[index.toInt.toNat]?, data)
      else (.got .ETCH_EINVAL none, data)
  | .indexOf none => (.index (-1), data)
  | .indexOf (some value) => (.index (indexIn data value), data)
  | .contains none => (.found false, data)
  | .contains (some value) => (.found (decide (value ∈ data)), data)

/-- The calls that act on the list as on the data. -/
def Exact (data : List D) : Call D → Prop
  | .add (some _) => data.length + 1 < 2 ^ 32
  | .insert index (some _) =>
      Inside data index → data.length + 1 < 2 ^ 32
  | .indexOf none => False
  | .indexOf (some value) => Reached data value
  | .remove (some value) => Reached data value
  | _ => True

/-- The call returns what it is to return and leaves the list of the data that
it is to leave. -/
def Performs (list : EtchLinkedList D) (newnode : Nat) (data : List D)
    (call : Call D) : Prop :=
  ∃ rounds next,
    perform rounds newnode list call = some ((effect data call).1, next) ∧
      next.Represents (effect data call).2

variable {list : EtchLinkedList D} {cells : List (Nat × D)} {newnode : Nat}

/-! ## One call -/

omit [DecidableEq D] in
theorem Holds.represents (holds : list.Holds cells) :
    list.Represents (cells.map Prod.snd) :=
  ⟨cells, holds, rfl⟩

theorem Holds.performs_add (holds : list.Holds cells)
    (unused : list.nodes newnode = none) (data : Option D) :
    Performs list newnode (cells.map Prod.snd) (.add data) ↔
      Exact (cells.map Prod.snd) (.add data) := by
  cases data with
  | none => exact iff_of_true ⟨0, list, rfl, holds.represents⟩ trivial
  | some value =>
      constructor
      · rintro ⟨rounds, next, done, represents⟩
        have less := represents.length_lt
        rwa [effect, List.length_append] at less
      · intro fits
        rw [Exact, List.length_map] at fits
        obtain ⟨next, added, holds'⟩ := holds.add unused value fits
        refine ⟨0, next, ?_, _, holds', ?_⟩
        · rw [perform, added]
          rfl
        · rw [List.map_append]
          rfl

theorem Holds.performs_insert (holds : list.Holds cells)
    (unused : list.nodes newnode = none) (index : Int32)
    (data : Option D) :
    Performs list newnode (cells.map Prod.snd) (.insert index data) ↔
      Exact (cells.map Prod.snd) (.insert index data) := by
  cases data with
  | none => exact iff_of_true ⟨0, list, rfl, holds.represents⟩ trivial
  | some value =>
      unfold Performs Exact effect
      dsimp only
      by_cases inside : Inside (cells.map Prod.snd) index
      · rw [if_pos inside]
        obtain ⟨position, less, small, rfl, place⟩ := inside.exists_ofNat
        rw [place]
        constructor
        · rintro ⟨rounds, next, done, represents⟩ -
          have longer := represents.length_lt
          rwa [List.length_insertIdx_of_le_length (Nat.le_of_lt less)]
            at longer
        · intro fits
          have fits' := fits inside
          rw [List.length_map] at less fits'
          obtain ⟨rounds, next, inserted, holds'⟩ :=
            holds.insert unused value less small fits'
          refine ⟨rounds, next, ?_, _, holds',
            List.map_insertIdx _ _ _ _⟩
          rw [perform, inserted]
          rfl
      · rw [if_neg inside]
        refine iff_of_true ⟨0, list, ?_, holds.represents⟩
          fun inside' => absurd inside' inside
        rw [perform, holds.insert_outside inside]
        rfl

theorem Holds.performs_removeAt (holds : list.Holds cells)
    (index : Int32) :
    Performs list newnode (cells.map Prod.snd) (.removeAt index) := by
  unfold Performs effect
  dsimp only
  by_cases inside : Inside (cells.map Prod.snd) index
  · rw [if_pos inside]
    obtain ⟨position, less, small, rfl, place⟩ := inside.exists_ofNat
    rw [place]
    rw [List.length_map] at less
    obtain ⟨rounds, next, removed, holds'⟩ := holds.removeAt less small
    refine ⟨rounds, next, ?_, _, holds', (List.eraseIdx_map _ _ _).symm⟩
    rw [perform, removed]
    rfl
  · rw [if_neg inside]
    refine ⟨0, list, ?_, holds.represents⟩
    rw [perform, holds.removeAt_outside inside]
    rfl

theorem Holds.performs_get (holds : list.Holds cells) (index : Int32) :
    Performs list newnode (cells.map Prod.snd) (.get index) := by
  unfold Performs effect
  dsimp only
  by_cases inside : Inside (cells.map Prod.snd) index
  · rw [if_pos inside]
    obtain ⟨position, less, small, rfl, place⟩ := inside.exists_ofNat
    rw [place]
    rw [List.length_map] at less
    obtain ⟨rounds, got⟩ := holds.get less small
    refine ⟨rounds, list, ?_, holds.represents⟩
    rw [perform, got]
    rfl
  · rw [if_neg inside]
    refine ⟨0, list, ?_, holds.represents⟩
    rw [perform, holds.get_outside inside]
    rfl

/-- A search without an end has no outcome. -/
theorem Holds.reached_of_indexOf (holds : list.Holds cells) {value : D}
    {rounds : Nat} {index : Int32}
    (done : list.indexOf rounds (some value) = some index) :
    Reached (cells.map Prod.snd) value := by
  by_contra unreached
  obtain ⟨left, left', found⟩ := Option.bind_eq_some_iff.mp done
  have same := Returns.unique ⟨rounds, left'⟩
    (holds.indexOf_diverts unreached)
  rw [same] at found
  exact absurd found nofun

theorem Holds.indexOf (holds : list.Holds cells) {value : D}
    (reached : Reached (cells.map Prod.snd) value) :
    ∃ rounds, list.indexOf rounds (some value) =
      some (indexIn (cells.map Prod.snd) value) := by
  obtain ⟨rounds, done⟩ := holds.indexOf_returns reached
  refine ⟨rounds, ?_⟩
  unfold EtchLinkedList.indexOf
  dsimp only
  rw [done]
  rfl

theorem Holds.performs_indexOf (holds : list.Holds cells)
    (data : Option D) :
    Performs list newnode (cells.map Prod.snd) (.indexOf data) ↔
      Exact (cells.map Prod.snd) (.indexOf data) := by
  cases data with
  | none =>
      refine iff_of_false ?_ id
      rintro ⟨rounds, next, done, -⟩
      exact absurd (congrArg Prod.fst (Option.some.inj done)) (by
        unfold effect
        exact nofun)
  | some value =>
      constructor
      · rintro ⟨rounds, next, done, -⟩
        obtain ⟨index, found, -⟩ := Option.bind_eq_some_iff.mp done
        exact holds.reached_of_indexOf found
      · intro reached
        obtain ⟨rounds, found⟩ := holds.indexOf reached
        refine ⟨rounds, list, ?_, holds.represents⟩
        rw [perform, found]
        rfl

theorem Holds.performs_contains (holds : list.Holds cells)
    (data : Option D) :
    Performs list newnode (cells.map Prod.snd) (.contains data) := by
  cases data with
  | none => exact ⟨0, list, rfl, holds.represents⟩
  | some value =>
      obtain ⟨rounds, asked⟩ := holds.contains value
      refine ⟨rounds, list, ?_, holds.represents⟩
      rw [perform, asked]
      rfl

theorem Holds.performs_clear (holds : list.Holds cells) :
    Performs list newnode (cells.map Prod.snd) .clear := by
  obtain ⟨rounds, cleared⟩ := holds.clear
  refine ⟨rounds, create, ?_, represents_create⟩
  rw [perform, cleared]
  rfl

/-- What is found is removed. -/
theorem Holds.remove (holds : list.Holds cells) {value : D}
    (reached : Reached (cells.map Prod.snd) value) :
    ∃ rounds next, list.remove rounds (some value) =
        some (if value ∈ cells.map Prod.snd then .ETCH_SUCCESS
          else .ETCH_EOUTOFBOUNDS, next) ∧
      next.Represents ((cells.map Prod.snd).erase value) := by
  obtain ⟨rounds, found⟩ := holds.indexOf reached
  unfold EtchLinkedList.remove
  by_cases mem : value ∈ cells.map Prod.snd
  · have less := List.idxOf_lt_length_of_mem mem
    have small : (cells.map Prod.snd).idxOf value < 2 ^ 31 := by
      obtain ⟨before, after, split, absent⟩ := List.eq_append_cons_of_mem mem
      rw [split] at reached ⊢
      have small := (reached_append_iff absent).mp reached
      rwa [List.idxOf_append_of_notMem absent, List.idxOf_cons_self]
    rw [List.length_map] at less
    obtain ⟨rounds', next, removed, holds'⟩ := holds.removeAt less small
    refine ⟨max rounds rounds', next, ?_, _, holds', ?_⟩
    · rw [if_pos mem]
      have found' := indexOf_mono (Nat.le_max_left rounds rounds') found
      rw [indexIn, if_pos mem] at found'
      dsimp only
      rw [found', Option.bind_eq_bind, Option.bind_some]
      exact removeAt_mono (Nat.le_max_right rounds rounds') removed
    · rw [← List.eraseIdx_map, List.eraseIdx_idxOf_eq_erase]
  · rw [if_neg mem, List.erase_of_not_mem mem]
    refine ⟨rounds, list, ?_, holds.represents⟩
    rw [indexIn, if_neg mem] at found
    dsimp only
    rw [found, Option.bind_eq_bind, Option.bind_some]
    have outside : ¬ Inside (cells.map Prod.snd) (-1) := by
      rintro ⟨nonneg, -⟩
      exact absurd nonneg (by decide)
    exact holds.removeAt_outside outside rounds

theorem Holds.performs_remove (holds : list.Holds cells)
    (data : Option D) :
    Performs list newnode (cells.map Prod.snd) (.remove data) ↔
      Exact (cells.map Prod.snd) (.remove data) := by
  cases data with
  | none => exact iff_of_true ⟨0, list, rfl, holds.represents⟩ trivial
  | some value =>
      constructor
      · rintro ⟨rounds, next, done, -⟩
        obtain ⟨removed, done', -⟩ := Option.bind_eq_some_iff.mp done
        obtain ⟨index, found, -⟩ := Option.bind_eq_some_iff.mp done'
        exact holds.reached_of_indexOf found
      · intro reached
        obtain ⟨rounds, next, removed, represents⟩ := holds.remove reached
        unfold Performs effect
        dsimp only
        split_ifs at removed ⊢ with mem
        · refine ⟨rounds, next, ?_, represents⟩
          rw [perform, removed]
          rfl
        · rw [List.erase_of_not_mem mem] at represents
          refine ⟨rounds, next, ?_, represents⟩
          rw [perform, removed]
          rfl

/-- A call acts on the list as on the data exactly where it is exact. -/
theorem Holds.performs_iff (holds : list.Holds cells)
    (unused : list.nodes newnode = none) (call : Call D) :
    Performs list newnode (cells.map Prod.snd) call ↔
      Exact (cells.map Prod.snd) call := by
  cases call with
  | add data => exact holds.performs_add unused data
  | insert index data => exact holds.performs_insert unused index data
  | removeAt index =>
      exact iff_of_true (holds.performs_removeAt index) trivial
  | remove data => exact holds.performs_remove data
  | clear => exact iff_of_true holds.performs_clear trivial
  | get index => exact iff_of_true (holds.performs_get index) trivial
  | indexOf data => exact holds.performs_indexOf data
  | contains data =>
      exact iff_of_true (holds.performs_contains data) trivial

/-! ## Runs -/

/-- Every call comes to an end, returns what it is to return, and leaves a
chain of the data that it is to leave, wherever its node is made. -/
def Follows (list : EtchLinkedList D) (data : List D) :
    List (Call D) → Prop
  | [] => list.Represents data
  | call :: calls =>
      list.Represents data ∧
        ∀ newnode, list.nodes newnode = none → ∃ rounds next,
          perform rounds newnode list call =
              some ((effect data call).1, next) ∧
            Follows next (effect data call).2 calls

/-- Every call of the run is exact for the data that it meets. -/
def ExactRun (data : List D) : List (Call D) → Prop
  | [] => True
  | call :: calls =>
      Exact data call ∧ ExactRun (effect data call).2 calls

theorem Follows.represents {data : List D} {calls : List (Call D)}
    (follows : Follows list data calls) : list.Represents data := by
  cases calls with
  | nil => exact follows
  | cons call calls => exact follows.1

theorem Represents.follows_iff_clear {data : List D}
    (represents : list.Represents data) (calls : List (Call D)) :
    Follows list data calls ↔ ExactRun data calls := by
  induction calls generalizing list data with
  | nil => exact iff_of_true represents trivial
  | cons call calls ih =>
      obtain ⟨cells, holds, rfl⟩ := represents
      constructor
      · rintro ⟨-, follows⟩
        obtain ⟨newnode, unused⟩ := holds.exists_unused
        obtain ⟨rounds, next, done, follows'⟩ := follows newnode unused
        have represents' := follows'.represents
        exact ⟨(holds.performs_iff unused call).mp
          ⟨rounds, next, done, represents'⟩, (ih represents').mp follows'⟩
      · rintro ⟨exact', exacts⟩
        refine ⟨holds.represents, fun newnode unused => ?_⟩
        obtain ⟨rounds, next, done, represents'⟩ :=
          (holds.performs_iff unused call).mpr exact'
        exact ⟨rounds, next, done, (ih represents').mpr exacts⟩

theorem follows_iff (calls : List (Call D)) :
    Follows (create : EtchLinkedList D) [] calls ↔ ExactRun [] calls :=
  represents_create.follows_iff_clear calls

/-- `NULL` is not in the empty list, where its index is 2. -/
theorem null_at_two :
    ¬ ∀ calls : List (Call Nat),
      Follows (create : EtchLinkedList Nat) [] calls := by
  intro all
  obtain ⟨-, follows⟩ := all [.indexOf none]
  obtain ⟨rounds, next, done, -⟩ := follows 0 rfl
  have answer : (Result.index EINVAL : Result Nat) = .index (-1) :=
    congrArg Prod.fst (Option.some.inj done)
  exact absurd answer (by decide)

end Etch.C.EtchLinkedList
