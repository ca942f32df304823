import Etch.C.ArraylistMerge
import Etch.Library.Fueled

/-!
# Runs of calls on the C `etch_arraylist`

What each call means for lists of entries, and when a call does it: as long as
the bytes of a buffer are an `unsigned int`, no entry that is to be added is
there already, and none of them is `NULL`.
-/

namespace Etch.C

open Etch.Library.Fueled
open EtchArraylist

variable {Item : Type}

/-! ## What calls mean -/

/-- The entries of some lists. -/
abbrev Entries (Item : Type) := List (List (Option Item))

namespace ListCall

/-- A change of one of the lists, and what it gives back. -/
def change (entries : Entries Item) (list : Nat)
    (operation : List (Option Item) → Int × List (Option Item)) :
    Option (Int × Entries Item) :=
  entries[list]?.map fun content =>
    let (result, content) := operation content
    (result, entries.set list content)

/-- What a call gives back and what it makes of the lists. -/
def meaning (entries : Entries Item) :
    ListCall Item → Option (Int × Entries Item)
  | .new _ _ _ _ _ => some (0, entries ++ [[]])
  | .newFrom list => entries[list]?.map fun content => (0, entries ++ [content])
  | .add list entry => change entries list fun content => (0, content ++ [entry])
  | .insert list i entry => change entries list fun content =>
      if i.toNat ≤ content.length then (0, content.insertIdx i.toNat entry)
      else (-1, content)
  | .set list i entry => change entries list fun content =>
      (if i.toNat < content.length then 0 else -1, content.set i.toNat entry)
  | .remove list i _ => change entries list fun content =>
      (if i.toNat < content.length then 0 else -1, content.eraseIdx i.toNat)
  | .removeContent list entry startat compare =>
      change entries list fun content =>
        match firstEqual compare entry startat.toNat content with
        | some index => (0, content.eraseIdx index)
        | none => (-1, content)
  | .clear list _ => change entries list fun _ => (0, [])
  | .addFrom list newitems compare => do
      let content ← entries[list]?
      let items ← entries[newitems]?
      let merged := merge compare content items
      some (merged.length - content.length, entries.set list merged)

end ListCall

namespace Arraylists

variable (machine : Machine)

/-- The entries of the lists. -/
abbrev entries (lists : Arraylists Item) : Entries Item :=
  lists.map content

/-- Each call comes back, gives back and leaves what it means, and the slots of
the entries are never more bytes than there are. -/
def Follows : Arraylists Item → Entries Item → List (ListCall Item) → Prop
  | _, _, [] => True
  | lists, entries, call :: calls => ∃ fuel answer lists' entries',
      lists.perform machine fuel call = some (answer, lists') ∧
        call.meaning entries = some (answer, entries') ∧
          lists'.entries = entries' ∧
            (∀ list ∈ lists', list.count * machine.slot ≤ list.size) ∧
              Follows lists' entries' calls

end Arraylists

/-! ## The condition -/

namespace ListCall

variable (machine : Machine)

/-- Whether a call can do what it means. -/
def Clear (lists : Arraylists Item) : ListCall Item → Prop
  | .new _ _ _ _ _ => True
  | .newFrom list => ∃ found, lists[list]? = some found ∧
      found.Copyable machine
  | .add list _ => ∃ found, lists[list]? = some found ∧ found.Ready machine
  | .insert list i _ => ∃ found, lists[list]? = some found ∧
      (Roomy machine found.delta found.size found.count ∨
        found.count < i.toNat ∧
          (found.delta = 0 ∨ found.size + machine.slot = 2 ^ 32))
  | .set list _ _ | .remove list _ _ | .removeContent list _ _ _ =>
      ∃ found, lists[list]? = some found
  | .clear list is_free_content => ∃ found, lists[list]? = some found ∧
      found.callsNull is_free_content = false
  | .addFrom list newitems compare => ∃ found items,
      lists[list]? = some found ∧ lists[newitems]? = some items ∧
        found.based machine ∧
        Arraylists.Mergeable machine compare (list = newitems) found
          items.content ∧
        -- what stands behind `NULL` would not be added
        ∀ entry ∈ items.content.drop (leading items.content).length,
          Contains compare (found.content ++ leading items.content) entry

/-- Whether each call can do what it means, where the calls before it left the
lists. -/
def ClearRun : Arraylists Item → List (ListCall Item) → Prop
  | _, [] => True
  | lists, call :: calls => call.Clear machine lists ∧
      ∀ fuel answer lists', lists.perform machine fuel call =
        some (answer, lists') → ClearRun lists' calls

end ListCall

/-! ## One call -/

namespace Arraylists

variable {machine : Machine} {lists lists' : Arraylists Item}
  {list items : EtchArraylist Item} {number fuel : Nat} {answer : Int}

/-- Every list is sized. -/
def AllSized (machine : Machine) (lists : Arraylists Item) : Prop :=
  ∀ list ∈ lists, list.Sized machine

theorem AllSized.at (all : lists.AllSized machine)
    (there : lists[number]? = some list) : list.Sized machine :=
  all list (List.mem_of_getElem? there)

theorem AllSized.set (all : lists.AllSized machine)
    (sized : list.Sized machine) :
    AllSized machine (lists.set number list) := by
  intro other mem
  rcases List.mem_or_eq_of_mem_set mem with mem | rfl
  · exact all other mem
  · exact sized

theorem AllSized.append (all : lists.AllSized machine)
    (sized : list.Sized machine) : AllSized machine (lists ++ [list]) := by
  intro other mem
  rcases List.mem_append.mp mem with mem | mem
  · exact all other mem
  · cases List.mem_singleton.mp mem
    exact sized

theorem entries_set (list : EtchArraylist Item) :
    entries (lists.set number list) = lists.entries.set number list.content :=
  List.map_set

theorem getElem?_entries (there : lists[number]? = some list) :
    lists.entries[number]? = some list.content := by
  rw [List.getElem?_map, there]
  rfl

/-- A call does what it means, and leaves the lists as they should be. -/
def Does (machine : Machine) (lists : Arraylists Item)
    (call : ListCall Item) : Prop :=
  ∃ answer lists', Returns (fun fuel => lists.perform machine fuel call)
      (answer, lists') ∧
    call.meaning lists.entries = some (answer, lists'.entries) ∧
      lists'.AllSized machine

/-- An operation on one list that does what it means. -/
theorem on_does (all : lists.AllSized machine)
    (there : lists[number]? = some list)
    (operation : EtchArraylist Item → Option (Int32 × EtchArraylist Item))
    (meaning : List (Option Item) → Int × List (Option Item))
    {result : Int32} {changed : EtchArraylist Item}
    (done : operation list = some (result, changed))
    (holds : changed.Holds machine (meaning list.content).2)
    (gives : result.toInt = (meaning list.content).1) :
    Returns (fun _ : Nat => lists.on number operation)
        (result.toInt, lists.set number changed) ∧
      ListCall.change lists.entries number meaning =
        some (result.toInt, entries (lists.set number changed)) ∧
      AllSized machine (lists.set number changed) := by
  refine ⟨?_, ?_, all.set holds.sized⟩
  · unfold on
    rw [there]
    dsimp only [Option.bind_eq_bind, Option.bind_some]
    rw [done]
    exact .const _
  · unfold ListCall.change
    rw [getElem?_entries there, gives, entries_set, holds.content]
    rfl

/-- A list with the entries of another one, whatever it is marked as. -/
theorem holds_marked {content : List (Option Item)}
    (holds : list.Holds machine content) (isReadonly objectContent : Bool)
    (freehook : Option (Nat → Option Item → Bool)) :
    ({ list with isReadonly, objectContent, freehook } :
      EtchArraylist Item).Holds machine content :=
  ⟨⟨holds.sized.length, holds.sized.small, holds.sized.delta_dvd,
    holds.sized.delta_small, holds.sized.inside⟩, holds.content⟩

/-- One round more changes nothing. -/
theorem addFromLoop_mono {compare : Comparator Item} {target source : Nat}
    {iterator : ListIterator Item} {count : Nat}
    {result : Nat × Arraylists Item}
    (came : addFromLoop machine compare target source fuel lists iterator
      count = some result) :
    addFromLoop machine compare target source (fuel + 1) lists iterator
      count = some result := by
  induction fuel generalizing lists iterator count with
  | zero => exact nomatch came
  | succ fuel ih =>
      rw [addFromLoop] at came ⊢
      obtain ⟨items, from_, came⟩ := Option.bind_eq_some_iff.mp came
      obtain ⟨list, there, came⟩ := Option.bind_eq_some_iff.mp came
      rw [from_, there]
      dsimp only [Option.bind_eq_bind, Option.bind_some]
      split_ifs at came ⊢ with next contains
      · exact ih came
      · obtain ⟨grown, done, came⟩ := Option.bind_eq_some_iff.mp came
        obtain ⟨base, written, came⟩ := Option.bind_eq_some_iff.mp came
        obtain ⟨items', from_', came⟩ := Option.bind_eq_some_iff.mp came
        rw [done]
        dsimp only [Option.bind_some]
        rw [written]
        dsimp only [Option.bind_some]
        rw [from_']
        exact ih came
      · exact came

/-- What is added from a list whose entries can be added. -/
theorem addFrom_returns {compare : Comparator Item} {newitems : Nat}
    (all : lists.AllSized machine) (there : lists[number]? = some list)
    (from_ : lists[newitems]? = some items) (based : list.based machine)
    (mergeable : Mergeable machine compare (number = newitems) list
      items.content) :
    ∃ list', Returns (fun fuel =>
        lists.addFrom machine fuel number newitems compare)
          ((leading items.content).length, lists.set number list') ∧
      list'.Holds machine (list.content ++ leading items.content) := by
  have sized := all.at there
  have sized' := all.at from_
  have unfolded (fuel : Nat) : lists.addFrom machine fuel number newitems
      compare = if items.count = 0 then some (0, lists)
        else (addFromLoop machine compare number newitems fuel lists
          (.standing items.content 0) 0).map fun counted =>
            ((counted.1 : Int), counted.2) := by
    unfold addFrom
    rw [there, from_]
    dsimp only [Option.bind_eq_bind, Option.bind_some]
    rw [based, ListIterator.first_eq sized']
    rw [if_neg (by decide)]
    split_ifs
    · rfl
    · cases addFromLoop machine compare number newitems fuel lists
        (.standing items.content 0) 0 <;> rfl
  by_cases empty : items.count = 0
  · have none : items.content = [] := by
      unfold content
      rw [empty]
      exact List.take_zero
    rw [none]
    refine ⟨list, ?_, sized, (List.append_nil _).symm⟩
    obtain ⟨inside, rfl⟩ := List.getElem?_eq_some_iff.mp there
    rw [List.set_getElem_self inside, funext unfolded]
    simp only [if_pos empty]
    exact .const _
  · obtain ⟨fuel, ⟨count, lists'⟩, came⟩ := Mergeable.addFromLoop 0 0
      there from_ sized' sized
      (by rw [List.drop_zero]; exact mergeable)
    obtain ⟨_, total, list', eq, holds⟩ :=
      mergeable_of_addFromLoop there from_ sized' sized came
    rw [List.drop_zero] at total holds
    refine ⟨list', ?_, holds⟩
    have returns := @Returns.of_mono _ (fun fuel => addFromLoop machine compare
      number newitems fuel lists (.standing items.content 0) 0)
        (fun _ _ => addFromLoop_mono) _ _ came
    rw [funext unfolded]
    simp only [if_neg empty]
    rw [total, Nat.zero_add, eq] at returns
    refine ⟨?_, fun fuel other came => ?_⟩
    · obtain ⟨fuel, came⟩ := returns.reached
      exact ⟨fuel, by rw [came]; rfl⟩
    · obtain ⟨pair, here, rfl⟩ := Option.map_eq_some_iff.mp came
      rw [returns.only fuel pair here]

/-- A call that can do what it means does it. -/
theorem AllSized.does (all : lists.AllSized machine) {call : ListCall Item}
    (clear : call.Clear machine lists) : lists.Does machine call := by
  cases call with
  | new initsize deltsize isReadonly objectContent freehook =>
      have holds := holds_marked ⟨sized_new machine initsize.toNat
        deltsize.toNat, content_new machine _ _⟩ isReadonly objectContent
          freehook
      refine ⟨_, _, .const _, ?_, all.append holds.sized⟩
      unfold ListCall.meaning entries
      rw [List.map_append, List.map_singleton, holds.content]
  | newFrom number =>
      obtain ⟨list, there, copyable⟩ := clear
      obtain ⟨copy, done, holds⟩ := (all.at there).newFrom copyable
      refine ⟨0, lists ++ [copy], ?_, ?_, all.append holds.sized⟩
      · unfold perform
        dsimp only
        rw [there]
        dsimp only [Option.bind_eq_bind, Option.bind_some]
        rw [done]
        exact .const _
      · unfold ListCall.meaning
        dsimp only
        rw [getElem?_entries there]
        unfold entries
        rw [List.map_append, List.map_singleton, holds.content]
        rfl
  | add number entry =>
      obtain ⟨list, there, ready⟩ := clear
      obtain ⟨list', done, holds⟩ := (all.at there).add ready entry
      exact ⟨_, _, on_does all there _
        (fun content => (0, content ++ [entry])) done holds rfl⟩
  | insert number i entry =>
      obtain ⟨list, there, room⟩ := clear
      have sized := all.at there
      by_cases near : i.toNat ≤ list.count
      · have roomy := room.resolve_right fun far => by omega
        obtain ⟨list', done, holds⟩ := sized.insert near roomy entry
        rw [← sized.length_content] at near
        exact ⟨_, _, on_does all there _
          (fun content =>
            if i.toNat ≤ content.length then (0, content.insertIdx i.toNat entry)
            else (-1, content)) done (by rw [if_pos near]; exact holds)
          (by rw [if_pos near]; rfl)⟩
      · obtain ⟨list', done, holds⟩ := sized.insert_far
          (Nat.lt_of_not_le near) (room.imp_right And.right) entry
        rw [← sized.length_content] at near
        exact ⟨_, _, on_does all there _
          (fun content =>
            if i.toNat ≤ content.length then (0, content.insertIdx i.toNat entry)
            else (-1, content)) done (by rw [if_neg near]; exact holds)
          (by rw [if_neg near]; rfl)⟩
  | set number i entry =>
      obtain ⟨list, there⟩ := clear
      obtain ⟨list', done, holds⟩ := (all.at there).set i.toNat entry
      exact ⟨_, _, on_does all there (fun list =>
        some (list.set i.toNat entry)) (fun content =>
          (if i.toNat < content.length then 0 else -1,
            content.set i.toNat entry)) (congrArg some done) holds
        (by dsimp only; split_ifs <;> rfl)⟩
  | remove number i is_free_content =>
      obtain ⟨list, there⟩ := clear
      obtain ⟨list', done, holds⟩ := (all.at there).remove i.toNat
      exact ⟨_, _, on_does all there (fun list =>
        some (list.remove i.toNat)) (fun content =>
          (if i.toNat < content.length then 0 else -1,
            content.eraseIdx i.toNat)) (congrArg some done) holds
        (by dsimp only; split_ifs <;> rfl)⟩
  | removeContent number entry startat compare =>
      obtain ⟨list, there⟩ := clear
      obtain ⟨list', done, holds⟩ :=
        (all.at there).removeContent entry startat.toNat compare
      refine ⟨_, _, on_does all there (fun list =>
        some (list.removeContent entry startat.toNat compare))
        (fun content =>
          match firstEqual compare entry startat.toNat content with
          | some index => (0, content.eraseIdx index)
          | none => (-1, content)) (congrArg some done) ?_ ?_⟩
      · cases found : firstEqual compare entry startat.toNat list.content <;>
          rw [found] at holds <;> exact holds
      · cases firstEqual compare entry startat.toNat list.content <;> rfl
  | clear number is_free_content =>
      obtain ⟨list, there, calls⟩ := clear
      obtain ⟨list', done, holds⟩ := (all.at there).clear calls
      have clears : (do
          let list ← list.clear machine is_free_content
          some ((0 : Int32), list)) = some (0, list') := by
        rw [done]
        rfl
      exact ⟨_, _, on_does all there (fun list => do
        let list ← list.clear machine is_free_content
        some (0, list)) (fun _ => (0, [])) clears holds rfl⟩
  | addFrom number newitems compare =>
      obtain ⟨list, items, there, from_, based, mergeable, rest⟩ := clear
      obtain ⟨list', returns, holds⟩ :=
        addFrom_returns all there from_ based mergeable
      refine ⟨_, _, returns, ?_, all.set holds.sized⟩
      have merged : merge compare list.content items.content =
          list.content ++ leading items.content :=
        (merge_leading mergeable.fresh).trans (merge_eq_self_iff.mpr rest)
      unfold ListCall.meaning
      dsimp only
      rw [getElem?_entries there, getElem?_entries from_]
      dsimp only [Option.bind_eq_bind, Option.bind_some]
      rw [merged, entries_set, holds.content, List.length_append]
      simp

/-- What an operation on one list came from. -/
theorem on_eq_some
    {operation : EtchArraylist Item → Option (Int32 × EtchArraylist Item)}
    (came : lists.on number operation = some (answer, lists')) :
    ∃ list result changed, lists[number]? = some list ∧
      operation list = some (result, changed) ∧ answer = result.toInt := by
  obtain ⟨list, there, came⟩ := Option.bind_eq_some_iff.mp came
  obtain ⟨⟨result, changed⟩, done, came⟩ := Option.bind_eq_some_iff.mp came
  cases came
  exact ⟨list, result, changed, there, done, rfl⟩

/-- An entry list was added as it means: it could be. -/
theorem AllSized.clear_of_addFrom (all : lists.AllSized machine)
    {compare : Comparator Item} {newitems : Nat}
    (came : lists.addFrom machine fuel number newitems compare =
      some (answer, lists'))
    (means : (ListCall.addFrom number newitems compare).meaning lists.entries =
      some (answer, lists'.entries)) :
    (ListCall.addFrom number newitems compare).Clear machine lists := by
  obtain ⟨list, there, came⟩ := Option.bind_eq_some_iff.mp came
  obtain ⟨items, from_, came⟩ := Option.bind_eq_some_iff.mp came
  have sized := all.at there
  have sized' := all.at from_
  have inside := (List.getElem?_eq_some_iff.mp there).1
  unfold ListCall.meaning at means
  dsimp only at means
  rw [getElem?_entries there, getElem?_entries from_] at means
  dsimp only [Option.bind_eq_bind, Option.bind_some] at means
  obtain ⟨answer_eq, entries_eq⟩ := Prod.mk.inj (Option.some.inj means)
  have longer := length_le_merge compare list.content items.content
  by_cases based : list.based machine = true
  swap
  · -- the answer is -1
    rw [if_pos (by simpa using based)] at came
    cases came
    omega
  rw [if_neg (by simpa using based)] at came
  by_cases empty : items.count = 0
  · have none : items.content = [] := by
      unfold content
      rw [empty]
      exact List.take_zero
    refine ⟨list, items, there, from_, based, ?_, ?_⟩
    · rw [none]
      exact ⟨fun _ some => absurd rfl some, trivial, trivial⟩
    · rw [none]
      exact fun _ mem => nomatch mem
  · rw [if_neg empty, ListIterator.first_eq sized'] at came
    obtain ⟨⟨count, lists''⟩, came, last⟩ := Option.bind_eq_some_iff.mp came
    cases last
    obtain ⟨mergeable, _, list', eq, holds⟩ :=
      mergeable_of_addFromLoop there from_ sized' sized came
    rw [List.drop_zero] at mergeable holds
    refine ⟨list, items, there, from_, based, mergeable, ?_⟩
    -- the list has the leading entries, and should have those behind too
    have same : merge compare list.content items.content =
        list.content ++ leading items.content := by
      have at_ := congrArg (·[number]?) entries_eq
      rw [eq, entries_set, List.getElem?_set_self (by simpa using inside),
        List.getElem?_set_self (by simpa using inside), holds.content] at at_
      exact Option.some.inj at_
    rw [merge_leading mergeable.fresh] at same
    exact merge_eq_self_iff.mp same

/-- A call that did what it means could do it. -/
theorem AllSized.clear_of_means (all : lists.AllSized machine)
    {call : ListCall Item}
    (came : lists.perform machine fuel call = some (answer, lists'))
    (means : call.meaning lists.entries = some (answer, lists'.entries)) :
    call.Clear machine lists := by
  cases call with
  | new initsize deltsize isReadonly objectContent freehook => trivial
  | newFrom number =>
      obtain ⟨list, there, came⟩ := Option.bind_eq_some_iff.mp came
      obtain ⟨copy, done, _⟩ := Option.bind_eq_some_iff.mp came
      exact ⟨list, there, (all.at there).copyable_of_newFrom done⟩
  | add number entry =>
      obtain ⟨list, result, changed, there, done, answer_eq⟩ := on_eq_some came
      obtain ⟨content, there', pair⟩ := Option.map_eq_some_iff.mp means
      have zero : result.toInt = 0 :=
        answer_eq.symm.trans (Prod.mk.inj pair).1.symm
      have result_eq : result = 0 := Int32.toInt_inj.mp zero
      rw [result_eq] at done
      exact ⟨list, there, (all.at there).ready_of_add done⟩
  | insert number i entry =>
      obtain ⟨list, result, changed, there, done, _⟩ := on_eq_some came
      exact ⟨list, there, (all.at there).roomy_of_insert done⟩
  | set number i entry =>
      obtain ⟨list, _, _, there, _⟩ := on_eq_some came
      exact ⟨list, there⟩
  | remove number i is_free_content =>
      obtain ⟨list, _, _, there, _⟩ := on_eq_some came
      exact ⟨list, there⟩
  | removeContent number entry startat compare =>
      obtain ⟨list, _, _, there, _⟩ := on_eq_some came
      exact ⟨list, there⟩
  | clear number is_free_content =>
      obtain ⟨list, _, changed, there, done, _⟩ := on_eq_some came
      obtain ⟨list', cleared, _⟩ := Option.bind_eq_some_iff.mp done
      exact ⟨list, there, (all.at there).callsNull_of_clear cleared⟩
  | addFrom number newitems compare => exact all.clear_of_addFrom came means

/-! ## Runs -/

/-- A run is what its calls mean exactly when each of them can do it. -/
theorem AllSized.follows_iff_clearRun (all : lists.AllSized machine)
    (calls : List (ListCall Item)) :
    lists.Follows machine lists.entries calls ↔
      ListCall.ClearRun machine lists calls := by
  induction calls generalizing lists with
  | nil => exact Iff.rfl
  | cons call calls ih =>
      constructor
      · rintro ⟨fuel, answer, lists', entries', came, means, rfl, _, follows⟩
        have clear := all.clear_of_means came means
        refine ⟨clear, fun fuel' answer' lists'' came' => ?_⟩
        obtain ⟨_, _, returns, _, sized⟩ := all.does clear
        cases returns.only fuel _ came
        cases returns.only fuel' _ came'
        exact (ih sized).mp follows
      · rintro ⟨clear, rest⟩
        obtain ⟨answer, lists', returns, means, sized⟩ := all.does clear
        obtain ⟨fuel, came⟩ := returns.reached
        exact ⟨fuel, answer, lists', _, came, means, rfl,
          fun list mem => (sized list mem).count_le,
          (ih sized).mpr (rest fuel answer lists' came)⟩

/-- Calls on lists that they make are what they mean exactly when each of them
can do it. -/
theorem lists_follow_iff (machine : Machine) (calls : List (ListCall Item)) :
    Follows machine [] [] calls ↔ ListCall.ClearRun machine [] calls :=
  AllSized.follows_iff_clearRun (fun _ mem => absurd mem List.not_mem_nil) calls

/-- Two lists of one entry each, which is the same one, and then one added to
the other. -/
def addedAgain : List (ListCall Nat) :=
  [.new 1 1 false false none, .add 0 (some 7), .new 1 1 false false none,
    .add 1 (some 7), .addFrom 0 1 fun entry other =>
      if entry = other then 0 else 1]

/-- Adding an entry that is there already does not come back. -/
theorem addedAgain_not_follows :
    ¬ Follows ⟨.bits64, true⟩ [] [] addedAgain := by
  intro follows
  obtain ⟨_, made⟩ := (AllSized.follows_iff_clearRun
    (fun _ mem => absurd mem List.not_mem_nil) addedAgain).mp follows
  obtain ⟨_, added⟩ := made 0 _ _ rfl
  obtain ⟨_, made⟩ := added 0 _ _ rfl
  obtain ⟨_, added⟩ := made 0 _ _ rfl
  obtain ⟨⟨list, items, there, from_, _, mergeable, _⟩, _⟩ :=
    added 0 _ _ rfl
  cases there
  cases from_
  exact mergeable.fresh.1 (by decide)

end Arraylists

end Etch.C
