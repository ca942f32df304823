import Etch.C.ArraylistSteps
import Mathlib.Data.List.TakeWhile

/-!
# Adding the entries of a list to another one

The loop goes on over the entries in front of the first `NULL`.  An entry that
the list has already is come back to without end, since nothing moves the
iterator then; and a list that is added to itself is never at its end.
-/

namespace Etch.C

variable {Item : Type} {machine : Machine}

/-! ## What is asked of the entries -/

/-- The entries in front of the first `NULL`. -/
def leading (content : List (Option Item)) : List (Option Item) :=
  content.takeWhile Option.isSome

theorem leading_cons (entry : Item) (content : List (Option Item)) :
    leading (some entry :: content) = some entry :: leading content :=
  rfl

theorem leading_append_of_mem {content : List (Option Item)}
    (mem : none ∈ content) (behind : List (Option Item)) :
    leading (content ++ behind) = leading content := by
  induction content with
  | nil => exact nomatch mem
  | cons first content ih =>
      cases first with
      | none => rfl
      | some first =>
          rw [List.cons_append, leading_cons, leading_cons,
            ih ((List.mem_cons.mp mem).resolve_left nofun)]

theorem leading_of_not_mem {content : List (Option Item)}
    (not : none ∉ content) : leading content = content := by
  refine List.takeWhile_eq_self_iff.mpr fun entry mem => ?_
  cases entry with
  | none => exact absurd mem not
  | some entry => rfl

/-- Behind a place there is an entry, or `NULL` or nothing. -/
theorem leading_drop {content : List (Option Item)} {place : Nat} :
    leading (content.drop place) = match content[place]?.join with
      | some entry => some entry :: leading (content.drop (place + 1))
      | none => [] := by
  cases here : content[place]? with
  | none =>
      rw [List.drop_eq_nil_of_le (List.getElem?_eq_none_iff.mp here)]
      rfl
  | some entry =>
      obtain ⟨inside, rfl⟩ := List.getElem?_eq_some_iff.mp here
      rw [List.drop_eq_getElem_cons inside]
      cases content[place] <;> rfl

namespace EtchArraylist

/-- None of the entries is equal to one of the list or to one in front of
it. -/
def Fresh (compare : Comparator Item) :
    List (Option Item) → List (Option Item) → Prop
  | _, [] => True
  | content, entry :: entries => ¬ Contains compare content entry ∧
      Fresh compare (content ++ [entry]) entries

/-- There is room for so many entries. -/
def RoomFor (machine : Machine) (delta : Nat) : Nat → Nat → Nat → Prop
  | _, _, 0 => True
  | size, count, entries + 1 => Roomy machine delta size count ∧
      RoomFor machine delta (grownSize machine delta size count) (count + 1)
        entries

/-- Entries, one after another, unless they are there already. -/
def merge (compare : Comparator Item) (content entries : List (Option Item)) :
    List (Option Item) :=
  entries.foldl (fun content entry =>
    if Contains compare content entry then content
    else content ++ [entry]) content

theorem merge_of_fresh {compare : Comparator Item}
    {content entries : List (Option Item)}
    (fresh : Fresh compare content entries) :
    merge compare content entries = content ++ entries := by
  induction entries generalizing content with
  | nil => exact (List.append_nil _).symm
  | cons entry entries ih =>
      change merge compare (if _ then _ else _) entries = _
      rw [if_neg fresh.1, ih fresh.2, List.append_assoc]
      rfl

theorem length_le_merge (compare : Comparator Item)
    (content entries : List (Option Item)) :
    content.length ≤ (merge compare content entries).length := by
  induction entries generalizing content with
  | nil => exact Nat.le_refl _
  | cons entry entries ih =>
      refine Nat.le_trans ?_ (ih _)
      dsimp only
      split_ifs
      · exact Nat.le_refl _
      · rw [List.length_append]
        exact Nat.le_add_right _ _

/-- Nothing is added exactly when all entries are there already. -/
theorem merge_eq_self_iff {compare : Comparator Item}
    {content entries : List (Option Item)} :
    merge compare content entries = content ↔
      ∀ entry ∈ entries, Contains compare content entry := by
  induction entries with
  | nil => exact iff_of_true rfl fun _ mem => nomatch mem
  | cons entry entries ih =>
      change merge compare (if _ then _ else _) entries = _ ↔ _
      rw [List.forall_mem_cons]
      split_ifs with there
      · rw [ih, and_iff_right there]
      · refine iff_of_false (fun same => ?_) fun all => there all.1
        have longer := length_le_merge compare (content ++ [entry]) entries
        rw [same, List.length_append] at longer
        exact Nat.not_succ_le_self _ longer

/-- The leading entries are added, then those behind them. -/
theorem merge_leading {compare : Comparator Item}
    {content entries : List (Option Item)}
    (fresh : Fresh compare content (leading entries)) :
    merge compare content entries =
      merge compare (content ++ leading entries)
        (entries.drop (leading entries).length) := by
  have split : entries = leading entries ++
      entries.drop (leading entries).length :=
    (List.prefix_iff_eq_append.mp (List.takeWhile_prefix _)).symm
  calc merge compare content entries
      = merge compare content (leading entries ++
          entries.drop (leading entries).length) := by rw [← split]
    _ = merge compare (merge compare content (leading entries))
          (entries.drop (leading entries).length) := List.foldl_append
    _ = _ := by rw [merge_of_fresh fresh]

end EtchArraylist

open EtchArraylist

namespace ListIterator

/-- The iterator at a place of the entries, at `NULL` and at the end. -/
def standing (content : List (Option Item)) (place : Nat) : ListIterator Item :=
  match content[place]?.join with
  | some entry => ⟨place + 1, some entry⟩
  | none => ⟨0, none⟩

variable {list : EtchArraylist Item} {place : Nat}

theorem get_eq (sized : list.Sized machine) (i : Nat) :
    list.get i = list.content[i]?.join := by
  unfold EtchArraylist.get EtchArraylist.content
  rw [List.getElem?_take]
  split_ifs with less
  · have inside : i < list.base.length := less.trans_le sized.inside
    rw [List.getD_eq_getElem?_getD, List.getElem?_eq_getElem inside]
    rfl
  · rfl

theorem first_eq (sized : list.Sized machine) :
    first machine list = standing list.content 0 := by
  unfold first standing
  split_ifs with there
  · dsimp only
    rw [get_eq sized]
    cases list.content[0]?.join <;> rfl
  · have count : list.count = 0 := by
      by_contra some
      refine there ⟨?_, some⟩
      by_contra not
      exact some (sized.count_of_not_based (Bool.not_eq_true _ ▸ not))
    have empty : list.content = [] := by
      unfold EtchArraylist.content
      rw [count]
      exact List.take_zero
    rw [empty]
    rfl

theorem hasNext_standing (sized : list.Sized machine) :
    (standing list.content place).hasNext list =
      (list.content[place]?.join).isSome := by
  unfold standing
  cases here : list.content[place]?.join with
  | none =>
      unfold hasNext
      simp
  | some entry =>
      have inside : place < list.count := by
        rw [← sized.length_content]
        obtain ⟨there, _⟩ := List.getElem?_eq_some_iff.mp
          (Option.join_eq_some_iff.mp here)
        exact there
      unfold hasNext
      simp
      omega

theorem next_standing {content : List (Option Item)} {entry : Item}
    (sized : list.Sized machine) (some : list.content ≠ [])
    (here : content[place]?.join = Option.some entry) :
    (standing content place).next list = standing list.content (place + 1) := by
  have count : list.count ≠ 0 := by
    rw [← sized.length_content]
    exact fun none => some (List.eq_nil_of_length_eq_zero none)
  unfold standing next
  rw [here]
  dsimp only
  rw [if_neg (by simpa using count), get_eq sized]
  cases list.content[place + 1]?.join <;> rfl

end ListIterator

/-! ## The loop -/

namespace Arraylists

variable {compare : Comparator Item} {target source fuel place count : Nat}
  {lists lists' : Arraylists Item} {list items : EtchArraylist Item}
  {entry : Item}

/-- Nothing is added at `NULL` and at the end. -/
theorem addFromLoop_done (there : lists[target]? = some list)
    (from_ : lists[source]? = some items) (sized : items.Sized machine)
    (here : items.content[place]?.join = none) :
    addFromLoop machine compare target source (fuel + 1) lists
      (.standing items.content place) count = some (count, lists) := by
  rw [addFromLoop, from_, there]
  dsimp only [Option.bind_eq_bind, Option.bind_some]
  rw [ListIterator.hasNext_standing sized, here]
  rfl

theorem hasNext_of_some (sized : items.Sized machine)
    (here : items.content[place]?.join = some entry) :
    (ListIterator.standing items.content place).hasNext items = true := by
  rw [ListIterator.hasNext_standing sized, here]
  rfl

theorem currentValue_standing {content : List (Option Item)}
    (here : content[place]?.join = some entry) :
    (ListIterator.standing content place).currentValue = some entry := by
  unfold ListIterator.standing
  rw [here]

/-- An entry that is there already is come back to. -/
theorem addFromLoop_again (there : lists[target]? = some list)
    (from_ : lists[source]? = some items) (sized : items.Sized machine)
    (sized' : list.Sized machine)
    (here : items.content[place]?.join = some entry)
    (contains : Contains compare list.content (some entry)) :
    addFromLoop machine compare target source (fuel + 1) lists
      (.standing items.content place) count =
        addFromLoop machine compare target source fuel lists
          (.standing items.content place) count := by
  rw [addFromLoop, from_, there]
  dsimp only [Option.bind_eq_bind, Option.bind_some]
  rw [if_pos (hasNext_of_some sized here), currentValue_standing here,
    if_pos ((sized'.contains _ compare).mpr contains)]

/-- A new entry for which there is no room. -/
theorem addFromLoop_full (there : lists[target]? = some list)
    (from_ : lists[source]? = some items) (sized : items.Sized machine)
    (sized' : list.Sized machine)
    (here : items.content[place]?.join = some entry)
    (fresh : ¬ Contains compare list.content (some entry))
    (full : ¬ Roomy machine list.delta list.size list.count) :
    addFromLoop machine compare target source (fuel + 1) lists
      (.standing items.content place) count = none := by
  rw [addFromLoop, from_, there]
  dsimp only [Option.bind_eq_bind, Option.bind_some]
  rw [if_pos (hasNext_of_some sized here), currentValue_standing here,
    if_neg (fun contains => fresh ((sized'.contains _ compare).mp contains))]
  cases done : list.checksize machine with
  | none => rfl
  | some grown =>
      dsimp only [Option.bind_some]
      rw [sized'.checksize_write_none full done]
      rfl

/-- A new entry for which there is room. -/
theorem addFromLoop_next (count : Nat) (there : lists[target]? = some list)
    (from_ : lists[source]? = some items) (sized : items.Sized machine)
    (sized' : list.Sized machine)
    (here : items.content[place]?.join = some entry)
    (fresh : ¬ Contains compare list.content (some entry))
    (roomy : Roomy machine list.delta list.size list.count) :
    ∃ list' items', (lists.set target list')[source]? = some items' ∧
      list'.Holds machine (list.content ++ [some entry]) ∧
      list'.delta = list.delta ∧ list'.count = list.count + 1 ∧
      list'.size = grownSize machine list.delta list.size list.count ∧
      (target = source → items' = list' ∧ items = list) ∧
      (target ≠ source → items' = items) ∧
      ∀ fuel, addFromLoop machine compare target source (fuel + 1) lists
        (.standing items.content place) count =
          addFromLoop machine compare target source fuel
            (lists.set target list') (.standing items'.content (place + 1))
            (count + 1) := by
  obtain ⟨grown, base, done, written, holds, delta, count_eq, size⟩ :=
    sized'.checksize_write roomy (some entry)
  have inside : target < lists.length :=
    (List.getElem?_eq_some_iff.mp there).1
  have rounds {items' : EtchArraylist Item}
      (from_' : (lists.set target { grown with
        base, count := grown.count + 1 })[source]? = some items')
      (sized'' : items'.Sized machine) (some : items'.content ≠ [])
      (fuel : Nat) :
      addFromLoop machine compare target source (fuel + 1) lists
        (.standing items.content place) count =
          addFromLoop machine compare target source fuel
            (lists.set target { grown with
              base, count := grown.count + 1 })
            (.standing items'.content (place + 1)) (count + 1) := by
    rw [addFromLoop, from_, there]
    dsimp only [Option.bind_eq_bind, Option.bind_some]
    rw [if_pos (hasNext_of_some sized here), currentValue_standing here,
      if_neg (fun contains => fresh ((sized'.contains _ compare).mp contains)),
      done]
    dsimp only [Option.bind_some]
    rw [written]
    dsimp only [Option.bind_some]
    rw [from_']
    dsimp only [Option.bind_some]
    rw [ListIterator.next_standing sized'' some here]
  refine ⟨{ grown with base, count := grown.count + 1 }, ?_⟩
  by_cases same : target = source
  · subst same
    cases there.symm.trans from_
    have from_' : (lists.set target { grown with
        base, count := grown.count + 1 })[target]? =
          some { grown with base, count := grown.count + 1 } :=
      List.getElem?_set_self inside
    refine ⟨_, from_', holds, delta, congrArg (· + 1) count_eq, size,
      fun _ => ⟨rfl, rfl⟩, fun not => absurd rfl not,
      rounds from_' holds.sized ?_⟩
    rw [holds.content]
    exact List.append_ne_nil_of_right_ne_nil _ (List.cons_ne_nil _ _)
  · have from_' : (lists.set target { grown with
        base, count := grown.count + 1 })[source]? = some items := by
      rw [List.getElem?_set_ne same]
      exact from_
    refine ⟨items, from_', holds, delta, congrArg (· + 1) count_eq, size,
      fun is => absurd is same, fun _ => rfl, rounds from_' sized ?_⟩
    intro empty
    rw [empty] at here
    exact nomatch here

/-! ## What the loop comes to -/

/-- Whether entries can be added one after another: a list that is added to
itself has to stop them with `NULL`. -/
structure Mergeable (machine : Machine) (compare : Comparator Item)
    (itself : Prop) (list : EtchArraylist Item)
    (entries : List (Option Item)) : Prop where
  stops : itself → leading entries ≠ [] → none ∈ entries
  fresh : Fresh compare list.content (leading entries)
  room : RoomFor machine list.delta list.size list.count
    (leading entries).length

/-- The entries that are left behind one that was added. -/
theorem drop_after {items' list' : EtchArraylist Item}
    (here : items.content[place]?.join = some entry)
    (holds : list'.Holds machine (list.content ++ [some entry]))
    (itself : target = source → items' = list' ∧ items = list)
    (other : target ≠ source → items' = items) :
    target = source ∧ items'.content.drop (place + 1) =
        items.content.drop (place + 1) ++ [some entry] ∨
      target ≠ source ∧ items'.content.drop (place + 1) =
        items.content.drop (place + 1) := by
  by_cases same : target = source
  · obtain ⟨rfl, rfl⟩ := itself same
    have inside := (List.getElem?_eq_some_iff.mp
      (Option.join_eq_some_iff.mp here)).1
    refine .inl ⟨same, ?_⟩
    rw [holds.content]
    exact List.drop_append_of_le_length inside
  · exact .inr ⟨same, by rw [other same]⟩

theorem drop_eq_cons (here : items.content[place]?.join = some entry) :
    items.content.drop place =
      some entry :: items.content.drop (place + 1) := by
  obtain ⟨inside, is⟩ := List.getElem?_eq_some_iff.mp
    (Option.join_eq_some_iff.mp here)
  rw [List.drop_eq_getElem_cons inside, is]

/-- When the loop ends the entries could be added, and were. -/
theorem mergeable_of_addFromLoop {count' : Nat}
    (there : lists[target]? = some list) (from_ : lists[source]? = some items)
    (sized : items.Sized machine) (sized' : list.Sized machine)
    (came : addFromLoop machine compare target source fuel lists
      (.standing items.content place) count = some (count', lists')) :
    Mergeable machine compare (target = source) list
        (items.content.drop place) ∧
      count' = count + (leading (items.content.drop place)).length ∧
      ∃ list', lists' = lists.set target list' ∧ list'.Holds machine
        (list.content ++ leading (items.content.drop place)) := by
  induction fuel generalizing lists list items place count with
  | zero => exact nomatch came
  | succ fuel ih =>
      cases here : items.content[place]?.join with
      | none =>
          rw [addFromLoop_done there from_ sized here] at came
          cases came
          have none : leading (items.content.drop place) = [] := by
            rw [leading_drop, here]
          rw [none]
          refine ⟨⟨fun _ some => absurd none some, none ▸ trivial,
            none ▸ trivial⟩, rfl, list, ?_, sized', (List.append_nil _).symm⟩
          obtain ⟨inside, rfl⟩ := List.getElem?_eq_some_iff.mp there
          exact (List.set_getElem_self inside).symm
      | some entry =>
          by_cases contains : Contains compare list.content (some entry)
          · -- the entry is still there in the next round
            rw [addFromLoop_again there from_ sized sized' here contains]
              at came
            have fresh := (ih there from_ sized sized' came).1.fresh
            rw [leading_drop, here] at fresh
            exact absurd contains fresh.1
          by_cases roomy : Roomy machine list.delta list.size list.count
          swap
          · rw [addFromLoop_full there from_ sized sized' here contains roomy]
              at came
            exact nomatch came
          obtain ⟨list', items', from_', holds, delta, count_eq, size, itself,
            other, next⟩ := addFromLoop_next count there from_ sized sized'
              here contains roomy
          rw [next fuel] at came
          have inside := (List.getElem?_eq_some_iff.mp there).1
          have sized'' : items'.Sized machine := by
            by_cases same : target = source
            · rw [(itself same).1]
              exact holds.sized
            · rw [other same]
              exact sized
          obtain ⟨⟨stops, fresh, room⟩, total, list'', eq, holds'⟩ := ih
            (List.getElem?_set_self inside) from_' sized'' holds.sized came
          have rest : leading (items'.content.drop (place + 1)) =
              leading (items.content.drop (place + 1)) ∧
                (target = source →
                  none ∈ items.content.drop (place + 1)) := by
            rcases drop_after here holds itself other with
              ⟨same, drop⟩ | ⟨same, drop⟩
            · rw [drop] at stops ⊢
              have mem : none ∈ items.content.drop (place + 1) := by
                by_contra not
                have not' : none ∉ items.content.drop (place + 1) ++
                    [some entry] := by simpa using not
                refine not' (stops same ?_)
                rw [leading_of_not_mem not']
                exact List.append_ne_nil_of_right_ne_nil _
                  (List.cons_ne_nil _ _)
              exact ⟨leading_append_of_mem mem _, fun _ => mem⟩
            · exact ⟨by rw [drop], fun is => absurd is same⟩
          have first : leading (items.content.drop place) = some entry ::
              leading (items.content.drop (place + 1)) := by
            rw [leading_drop, here]
          rw [rest.1] at fresh room total holds'
          rw [holds.content] at fresh holds'
          rw [delta, size, count_eq] at room
          refine ⟨⟨fun same _ => ?_, ?_, ?_⟩, ?_, list'', ?_, ?_⟩
          · rw [drop_eq_cons here]
            exact List.mem_cons_of_mem _ (rest.2 same)
          · rw [first]
            exact ⟨contains, fresh⟩
          · rw [first]
            exact ⟨roomy, room⟩
          · rw [first, total, List.length_cons]
            omega
          · rw [eq, List.set_set]
          · rw [first, List.append_cons]
            exact holds'

/-- When the entries can be added the loop ends. -/
theorem Mergeable.addFromLoop (place count : Nat)
    (there : lists[target]? = some list)
    (from_ : lists[source]? = some items) (sized : items.Sized machine)
    (sized' : list.Sized machine)
    (mergeable : Mergeable machine compare (target = source) list
      (items.content.drop place)) :
    ∃ fuel result, Arraylists.addFromLoop machine compare target source fuel
      lists (.standing items.content place) count = some result := by
  generalize entries_eq : leading (items.content.drop place) = entries
  induction entries generalizing lists list items place count with
  | nil =>
      have here : items.content[place]?.join = none := by
        rw [leading_drop] at entries_eq
        cases here : items.content[place]?.join with
        | none => rfl
        | some entry =>
            rw [here] at entries_eq
            exact nomatch entries_eq
      exact ⟨1, _, addFromLoop_done there from_ sized here⟩
  | cons first entries ih =>
      obtain ⟨stops, fresh, room⟩ := mergeable
      have split := entries_eq
      rw [leading_drop] at split
      cases here : items.content[place]?.join with
      | none =>
          rw [here] at split
          exact nomatch split
      | some entry =>
          rw [here] at split
          obtain ⟨rfl, rest⟩ := List.cons.inj split
          rw [entries_eq] at stops fresh room
          obtain ⟨list', items', from_', holds, delta, count_eq, size, itself,
            other, next⟩ := addFromLoop_next count there from_ sized
              sized' here fresh.1 room.1
          have inside := (List.getElem?_eq_some_iff.mp there).1
          have sized'' : items'.Sized machine := by
            by_cases same : target = source
            · rw [(itself same).1]
              exact holds.sized
            · rw [other same]
              exact sized
          have after : leading (items'.content.drop (place + 1)) = entries ∧
              (target = source → none ∈ items'.content.drop (place + 1)) := by
            rcases drop_after here holds itself other with
              ⟨same, drop⟩ | ⟨same, drop⟩
            · have mem := stops same (List.cons_ne_nil _ _)
              rw [drop_eq_cons here] at mem
              have mem := (List.mem_cons.mp mem).resolve_left nofun
              rw [drop, leading_append_of_mem mem]
              exact ⟨rest, fun _ => List.mem_append_left _ mem⟩
            · exact ⟨by rw [drop, rest], fun is => absurd is same⟩
          obtain ⟨fuel, result, came⟩ := ih (place + 1) (count + 1)
            (List.getElem?_set_self inside) from_' sized'' holds.sized
            ⟨fun same _ => after.2 same, by
              rw [after.1, holds.content]
              exact fresh.2, by
              rw [after.1, delta, size, count_eq]
              exact room.2⟩ after.1
          exact ⟨fuel + 1, result, (next fuel).trans came⟩

end Arraylists

end Etch.C
