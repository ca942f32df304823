import Etch.Java.FlexBuffer

/-!
# The Java `IdName` and `IdNameMap`

Types and fields have a name and a number that is computed from it.  An
`IdNameMap` finds them by either.  Two names may have one number, and a number
may be given by hand.
-/

namespace Etch.Java

open Etch.Library.Fallible

/-- A Java string, as its `char` values. -/
abbrev JavaString := List UInt16

/-- A string written down in the source. -/
def text (literal : String) : JavaString :=
  literal.toList.flatMap fun c =>
    if c.toNat < 0x10000 then
      [c.toNat.toUInt16]
    else
      [(0xD7C0 + c.toNat / 0x400).toUInt16,
        (0xDC00 + c.toNat % 0x400).toUInt16]

/-- A check of the characters of a string one by one. -/
theorem forall_mem_of_all {s : JavaString} {p : UInt16 → Prop}
    [DecidablePred p] (all : s.all (fun c => decide (p c)) = true) :
    ∀ c ∈ s, p c :=
  fun c mem => of_decide_eq_true (List.all_eq_true.mp all c mem)

/-- What the message layer throws. -/
inductive Thrown where
  | illegalArgumentException (message : JavaString)
  | illegalStateException (message : JavaString)
  | unsupportedOperationException (message : JavaString)
  | nullPointerException
  | classCastException
  | negativeArraySizeException
  | arrayIndexOutOfBoundsException
  | assertionException (message : JavaString)
  | ioException (message : JavaString)
  | outOfMemoryError
  | stackOverflowError
  | buffer (exception : Exception)
deriving DecidableEq

/-- `catch ( Exception e )` -/
def Thrown.isException : Thrown → Bool
  | .outOfMemoryError => false
  | .stackOverflowError => false
  | _ => true

/-- An item with an id and a name, which two equal items have in common. -/
structure IdName where
  id : Int32
  name : JavaString
deriving DecidableEq

namespace IdName

/-- `Hash.hash(name)` -/
def hash (name : JavaString) : Int32 :=
  name.foldl (fun hash c =>
    let h6 := hash <<< 6
    (h6 <<< 10) + h6 - hash + c.toUInt32.toInt32) 5381

/-- `new IdName(name)` -/
def ofName (name : JavaString) : IdName :=
  ⟨hash name, name⟩

/-- `String.format("%s(%d)", name, id)` -/
def toString (item : IdName) : JavaString :=
  item.name ++ text "(" ++ text (ToString.toString item.id.toInt) ++ text ")"

example : (ofName (text "ab")).id = 1511848646 := by decide

end IdName

abbrev Field := IdName

/-- The items of a map have an `IdName` each. -/
class IdNamed (T : Type) where
  idName : T → IdName

instance : IdNamed IdName := ⟨id⟩

/-- A map of items by id and by name. -/
structure IdNameMap (T : Type) where
  byId : Int32 → Option T
  byName : JavaString → Option T
  locked : Bool

namespace IdNameMap

variable {T : Type} [IdNamed T]

open IdNamed

def empty : IdNameMap T :=
  ⟨fun _ => none, fun _ => none, false⟩

/-- `get(Integer id)` -/
def getById (map : IdNameMap T) (id : Int32) : Option T :=
  map.byId id

/-- `add(t)`, with the item it returns. -/
def add (map : IdNameMap T) (t : T) :
    Except Thrown (T × IdNameMap T) :=
  if map.locked then
    .error (.illegalStateException (text "locked"))
  else if (map.byId (idName t).id).isSome then
    .error (.illegalArgumentException
      (text "id collision: " ++ (idName t).toString))
  else if (map.byName (idName t).name).isSome then
    .error (.illegalArgumentException
      (text "name collision: " ++ (idName t).toString))
  else
    .ok (t,
      { map with
        byId := Function.update map.byId (idName t).id (some t)
        byName := Function.update map.byName (idName t).name (some t) })

/-- `get(String name)`, which adds an item unless the map is locked. -/
def getByName (makeNew : JavaString → T) (map : IdNameMap T)
    (name : JavaString) : Except Thrown (Option T × IdNameMap T) :=
  match map.byName name with
  | some t => .ok (some t, map)
  | none =>
      if map.locked then
        .ok (none, map)
      else do
        let (t, map) ← map.add (makeNew name)
        return (some t, map)

def lock (map : IdNameMap T) : IdNameMap T :=
  { map with locked := true }

/-- Each item is found by its id and by its name. -/
structure Consistent (map : IdNameMap T) : Prop where
  ofId : ∀ id t, map.byId id = some t →
    (idName t).id = id ∧ map.byName (idName t).name = some t
  ofName : ∀ name t, map.byName name = some t →
    (idName t).name = name ∧ map.byId (idName t).id = some t

theorem consistent_empty : (empty : IdNameMap T).Consistent where
  ofId := nofun
  ofName := nofun

theorem Consistent.lock {map : IdNameMap T} (consistent : map.Consistent) :
    map.lock.Consistent :=
  ⟨consistent.ofId, consistent.ofName⟩

/-- What `add` has checked and done when it returns. -/
theorem add_ok {map next : IdNameMap T} {t added : T}
    (done : map.add t = .ok (added, next)) :
    map.locked = false ∧ map.byId (idName t).id = none ∧
      map.byName (idName t).name = none ∧ added = t ∧
      next = { map with
        byId := Function.update map.byId (idName t).id (some t)
        byName := Function.update map.byName (idName t).name (some t) } := by
  unfold add at done
  split_ifs at done with locked idTaken nameTaken
  obtain ⟨rfl, rfl⟩ := Prod.mk.inj (Except.ok.inj done)
  refine ⟨by simpa using locked, ?_, ?_, rfl, rfl⟩
  · simpa using idTaken
  · simpa using nameTaken

/-- Nothing that was found is found no longer. -/
structure Grows (map next : IdNameMap T) : Prop where
  byId : ∀ id t, map.byId id = some t → next.byId id = some t
  byName : ∀ name t, map.byName name = some t → next.byName name = some t

theorem grows_add {map next : IdNameMap T} {t added : T}
    (done : map.add t = .ok (added, next)) : map.Grows next := by
  obtain ⟨_, idFree, nameFree, _, rfl⟩ := add_ok done
  constructor
  · intro id other found
    have different : id ≠ (idName t).id := by
      rintro rfl
      exact nomatch found.symm.trans idFree
    exact (Function.update_of_ne different ..).trans found
  · intro name other found
    have different : name ≠ (idName t).name := by
      rintro rfl
      exact nomatch found.symm.trans nameFree
    exact (Function.update_of_ne different ..).trans found

/-- An item that has been added is found. -/
theorem found_of_add {map next : IdNameMap T} {t added : T}
    (done : map.add t = .ok (added, next)) :
    next.byId (idName t).id = some t ∧
      next.byName (idName t).name = some t := by
  obtain ⟨_, _, _, _, rfl⟩ := add_ok done
  exact ⟨Function.update_self .., Function.update_self ..⟩

theorem Consistent.add {map next : IdNameMap T} {t added : T}
    (consistent : map.Consistent) (done : map.add t = .ok (added, next)) :
    next.Consistent := by
  have grows := grows_add done
  have found := found_of_add done
  obtain ⟨_, _, _, _, rfl⟩ := add_ok done
  constructor
  · intro id other present
    by_cases same : id = (idName t).id
    · subst same
      obtain rfl := Option.some.inj (found.1.symm.trans present)
      exact ⟨rfl, found.2⟩
    · have before : map.byId id = some other :=
        (Function.update_of_ne same ..).symm.trans present
      obtain ⟨itsId, byName⟩ := consistent.ofId id other before
      exact ⟨itsId, grows.byName _ _ byName⟩
  · intro name other present
    by_cases same : name = (idName t).name
    · subst same
      obtain rfl := Option.some.inj (found.2.symm.trans present)
      exact ⟨rfl, found.1⟩
    · have before : map.byName name = some other :=
        (Function.update_of_ne same ..).symm.trans present
      obtain ⟨itsName, byId⟩ := consistent.ofName name other before
      exact ⟨itsName, grows.byId _ _ byId⟩

/-- What `get(String name)` returns, and whether it has added it. -/
theorem getByName_cases {makeNew : JavaString → T} {map next : IdNameMap T}
    {name : JavaString} {result : Option T}
    (done : map.getByName makeNew name = .ok (result, next)) :
    (map.byName name = result ∧ next = map ∧
        (result = none → map.locked = true)) ∨
      (map.byName name = none ∧ map.locked = false ∧
        result = some (makeNew name) ∧
        map.add (makeNew name) = .ok (makeNew name, next)) := by
  unfold getByName at done
  cases present : map.byName name with
  | some t =>
      rw [present] at done
      obtain ⟨rfl, rfl⟩ := Prod.mk.inj (Except.ok.inj done)
      exact Or.inl ⟨rfl, rfl, nofun⟩
  | none =>
      rw [present] at done
      dsimp only at done
      split_ifs at done with locked
      · obtain ⟨rfl, rfl⟩ := Prod.mk.inj (Except.ok.inj done)
        exact Or.inl ⟨rfl, rfl, fun _ => locked⟩
      · obtain ⟨⟨t, after⟩, added, returned⟩ := bind_eq_ok_iff.mp done
        obtain ⟨rfl, rfl⟩ := Prod.mk.inj (Except.ok.inj returned)
        obtain ⟨opened, _, _, rfl, _⟩ := add_ok added
        exact Or.inr ⟨rfl, opened, rfl, added⟩

end IdNameMap

end Etch.Java
