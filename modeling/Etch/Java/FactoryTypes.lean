import Etch.Java.IdName

/-!
# The types of a tree of Java `DefaultValueFactory` objects

A factory looks for a type in its static types, then in its mixins, each of
which does the same, and last in its own dynamic types.  By name, every map it
comes to that is not locked makes the type up, also where a later map has it.
-/

namespace Etch.Java

open Etch.Library.Fallible

/-- A type object, given to the factories or made by the map it is in. -/
inductive TypeObject where
  | given (idName : IdName) (object : Nat)
  | made (idName : IdName) (map : Nat)
deriving DecidableEq

def TypeObject.idName : TypeObject → IdName
  | given idName _ => idName
  | made idName _ => idName

instance : IdNamed TypeObject := ⟨TypeObject.idName⟩

/-- The type maps of all factories. -/
abbrev TypeMaps := Nat → IdNameMap TypeObject

/-- `get(String name)` of a map. -/
def TypeMaps.get (state : TypeMaps) (map : Nat) (name : JavaString) :
    Except Thrown (Option TypeObject × TypeMaps) := do
  let (type, after) ← (state map).getByName
    (fun name => .made (IdName.ofName name) map) name
  return (type, Function.update state map after)

/-- A factory with its mixins.  Static types may be shared. -/
inductive DefaultValueFactory where
  | node (types dynamicTypes : Nat) (mixins : List DefaultValueFactory)

namespace DefaultValueFactory

mutual

/-- `getType(Integer id)` -/
def getTypeById (state : TypeMaps) :
    DefaultValueFactory → Int32 → Option TypeObject
  | node types dynamicTypes mixins, id =>
      match (state types).getById id with
      | some type => some type
      | none =>
          match getTypeByIdIn state mixins id with
          | some type => some type
          | none => (state dynamicTypes).getById id

/-- The loop of `getType(Integer id)` over the mixins. -/
def getTypeByIdIn (state : TypeMaps) :
    List DefaultValueFactory → Int32 → Option TypeObject
  | [], _ => none
  | vf :: mixins, id =>
      match getTypeById state vf id with
      | some type => some type
      | none => getTypeByIdIn state mixins id

end

mutual

/-- `getType(String name)` -/
def getTypeByName (state : TypeMaps) :
    DefaultValueFactory → JavaString →
      Except Thrown (Option TypeObject × TypeMaps)
  | node types dynamicTypes mixins, name => do
      let (type, state) ← state.get types name
      match type with
      | some type => return (some type, state)
      | none =>
          let (type, state) ← getTypeByNameIn state mixins name
          match type with
          | some type => return (some type, state)
          | none => state.get dynamicTypes name

/-- The loop of `getType(String name)` over the mixins. -/
def getTypeByNameIn (state : TypeMaps) :
    List DefaultValueFactory → JavaString →
      Except Thrown (Option TypeObject × TypeMaps)
  | [], _ => return (none, state)
  | vf :: mixins, name => do
      let (type, state) ← getTypeByName state vf name
      match type with
      | some type => return (some type, state)
      | none => getTypeByNameIn state mixins name

end

/-- `addType(type)`, which ignores a collision in its own dynamic types. -/
def addType (state : TypeMaps) : DefaultValueFactory → TypeObject →
    Except Thrown TypeMaps
  | node _ dynamicTypes _, type =>
      match (state dynamicTypes).add type with
      | .ok (_, after) => .ok (Function.update state dynamicTypes after)
      | .error (.illegalArgumentException _) => .ok state
      | .error thrown => .error thrown

mutual

/-- A factory and the factories under it. -/
def factories : DefaultValueFactory → List DefaultValueFactory
  | node types dynamicTypes mixins =>
      node types dynamicTypes mixins :: factoriesIn mixins

def factoriesIn : List DefaultValueFactory → List DefaultValueFactory
  | [] => []
  | vf :: mixins => vf.factories ++ factoriesIn mixins

end

mutual

/-- The maps that a factory consults, in order. -/
def order : DefaultValueFactory → List Nat
  | node types dynamicTypes mixins =>
      types :: (orderIn mixins ++ [dynamicTypes])

def orderIn : List DefaultValueFactory → List Nat
  | [] => []
  | vf :: mixins => vf.order ++ orderIn mixins

end

/-! ## Lookups walk the maps in order -/

/-- The first type with an id in a list of maps. -/
def findId (state : TypeMaps) (maps : List Nat) (id : Int32) :
    Option TypeObject :=
  maps.findSome? fun map => (state map).byId id

/-- The first map that has a name or would make it. -/
def getIn (state : TypeMaps) : List Nat → JavaString →
    Except Thrown (Option TypeObject × TypeMaps)
  | [], _ => return (none, state)
  | map :: maps, name => do
      let (type, state) ← state.get map name
      match type with
      | some type => return (some type, state)
      | none => getIn state maps name

theorem findId_cons (state : TypeMaps) (map : Nat) (maps : List Nat)
    (id : Int32) :
    findId state (map :: maps) id =
      ((state map).byId id).or (findId state maps id) := by
  rw [findId, List.findSome?_cons, ← findId]
  cases (state map).byId id <;> rfl

theorem findId_append (state : TypeMaps) (first second : List Nat)
    (id : Int32) :
    findId state (first ++ second) id =
      (findId state first id).or (findId state second id) :=
  List.findSome?_append

mutual

theorem getTypeById_eq (state : TypeMaps) (vf : DefaultValueFactory)
    (id : Int32) : vf.getTypeById state id = findId state vf.order id := by
  cases vf with
  | node types dynamicTypes mixins =>
      rw [getTypeById, getTypeByIdIn_eq state mixins id, order, findId_cons,
        findId_append, IdNameMap.getById, IdNameMap.getById, findId_cons]
      cases (state types).byId id with
      | some type => rfl
      | none =>
          cases findId state (orderIn mixins) id with
          | some type => rfl
          | none => exact (Option.or_none ..).symm

theorem getTypeByIdIn_eq (state : TypeMaps)
    (mixins : List DefaultValueFactory) (id : Int32) :
    getTypeByIdIn state mixins id = findId state (orderIn mixins) id := by
  cases mixins with
  | nil => rfl
  | cons vf mixins =>
      rw [getTypeByIdIn, getTypeById_eq state vf id,
        getTypeByIdIn_eq state mixins id, orderIn, findId_append]
      cases findId state vf.order id <;> rfl

end

theorem getIn_singleton (state : TypeMaps) (map : Nat) (name : JavaString) :
    getIn state [map] name = state.get map name := by
  rw [getIn]
  cases state.get map name with
  | error thrown => rfl
  | ok pair =>
      obtain ⟨type, next⟩ := pair
      cases type <;> rfl

theorem getIn_append (state : TypeMaps) (first second : List Nat)
    (name : JavaString) :
    getIn state (first ++ second) name = (do
      let (type, state) ← getIn state first name
      match type with
      | some type => return (some type, state)
      | none => getIn state second name) := by
  induction first generalizing state with
  | nil => rfl
  | cons map maps ih =>
      rw [List.cons_append, getIn, getIn, bind_assoc]
      apply bind_congr
      rintro ⟨type, next⟩
      cases type with
      | some type => rfl
      | none => exact ih next

mutual

theorem getTypeByName_eq (state : TypeMaps) (vf : DefaultValueFactory)
    (name : JavaString) :
    vf.getTypeByName state name = getIn state vf.order name := by
  cases vf with
  | node types dynamicTypes mixins =>
      rw [getTypeByName, order, getIn]
      apply bind_congr
      rintro ⟨type, next⟩
      cases type with
      | some type => rfl
      | none =>
          dsimp only
          rw [getTypeByNameIn_eq next mixins name, getIn_append]
          apply bind_congr
          rintro ⟨type, last⟩
          cases type with
          | some type => rfl
          | none =>
              exact (getIn_singleton last dynamicTypes name).symm

theorem getTypeByNameIn_eq (state : TypeMaps)
    (mixins : List DefaultValueFactory) (name : JavaString) :
    getTypeByNameIn state mixins name =
      getIn state (orderIn mixins) name := by
  cases mixins with
  | nil => rfl
  | cons vf mixins =>
      rw [getTypeByNameIn, getTypeByName_eq state vf name, orderIn,
        getIn_append]
      apply bind_congr
      rintro ⟨type, next⟩
      cases type with
      | some type => rfl
      | none => exact getTypeByNameIn_eq next mixins name

end

/-! ## Calls -/

/-- A call on one of the factories. -/
inductive Call where
  | getTypeById (vf : DefaultValueFactory) (id : Int32)
  | getTypeByName (vf : DefaultValueFactory) (name : JavaString)
  | addType (vf : DefaultValueFactory) (type : TypeObject)

/-- The factory that is called. -/
def Call.factory : Call → DefaultValueFactory
  | getTypeById vf _ => vf
  | getTypeByName vf _ => vf
  | addType vf _ => vf

/-- What a call returns, null where it has no result, and what it leaves. -/
def perform (state : TypeMaps) :
    Call → Except Thrown (Option TypeObject × TypeMaps)
  | .getTypeById vf id => .ok (vf.getTypeById state id, state)
  | .getTypeByName vf name => vf.getTypeByName state name
  | .addType vf type => do
      let next ← vf.addType state type
      return (none, next)

/-- A sequence of calls, up to the first one that throws. -/
def run (state : TypeMaps) : List Call → Except Thrown TypeMaps
  | [] => .ok state
  | call :: calls => do
      let (_, next) ← perform state call
      run next calls

/-! ## What is promised -/

/-- A type that a factory finds by its name it finds by its id. -/
def Agrees (root : DefaultValueFactory) (state : TypeMaps) : Prop :=
  ∀ vf ∈ root.factories, ∀ name type,
    vf.getTypeByName state name = .ok (some type, state) →
      vf.getTypeById state type.idName.id = some type

/-- What a factory finds it finds again. -/
def Keeps (root : DefaultValueFactory) (state next : TypeMaps) : Prop :=
  ∀ vf ∈ root.factories,
    (∀ id type, vf.getTypeById state id = some type →
      vf.getTypeById next id = some type) ∧
    ∀ name type, vf.getTypeByName state name = .ok (some type, state) →
      vf.getTypeByName next name = .ok (some type, next)

/-- A type that has been returned is found by name and by its id. -/
def Answered (next : TypeMaps) : Call → Option TypeObject → Prop
  | .getTypeById vf id, some type => vf.getTypeById next id = some type
  | .getTypeByName vf name, some type =>
      vf.getTypeByName next name = .ok (some type, next) ∧
        vf.getTypeById next type.idName.id = some type
  | _, _ => True

/-- The promises along a sequence of calls. -/
def Promised (root : DefaultValueFactory) : TypeMaps → List Call → Prop
  | state, [] => Agrees root state
  | state, call :: calls => Agrees root state ∧
      ∀ type next, perform state call = .ok (type, next) →
        Answered next call type ∧ Keeps root state next ∧
          Promised root next calls

/-! ## What a call adds -/

/-- The type that a lookup by name makes, with the map it makes it in. -/
def makes (state : TypeMaps) :
    List Nat → JavaString → Option (Nat × TypeObject)
  | [], _ => none
  | map :: maps, name =>
      if ((state map).byName name).isSome then none
      else if (state map).locked then makes state maps name
      else some (map, .made (IdName.ofName name) map)

/-- The type that a call adds to a map, if it does. -/
def adds (state : TypeMaps) : Call → Option (Nat × TypeObject)
  | .getTypeByName vf name => makes state vf.order name
  | .addType (node _ dynamicTypes _) type =>
      match (state dynamicTypes).add type with
      | .ok _ => some (dynamicTypes, type)
      | .error _ => none
  | .getTypeById _ _ => none

/-- A lookup by name comes past these maps. -/
def Passes (state : TypeMaps) (maps : List Nat) (name : JavaString) : Prop :=
  ∀ map ∈ maps, (state map).byName name = none ∧ (state map).locked = true

/-- A factory comes to the new type by its name and to another by its id. -/
def Misses (map : Nat) (type : TypeObject) (state : TypeMaps)
    (vf : DefaultValueFactory) : Prop :=
  ∃ before after, vf.order = before ++ map :: after ∧ map ∉ before ∧
    Passes state before type.idName.name ∧
    findId state before type.idName.id ≠ none

/-- A factory comes to the new type by an id under which it had another. -/
def Hides (map : Nat) (type : TypeObject) (state : TypeMaps)
    (vf : DefaultValueFactory) : Prop :=
  ∃ before after other, vf.order = before ++ map :: after ∧
    map ∉ before ∧ findId state before type.idName.id = none ∧
    findId state after type.idName.id = some other ∧ other ≠ type

/-- A type that may be added to a map. -/
def Fits (root : DefaultValueFactory) (state : TypeMaps) (map : Nat)
    (type : TypeObject) : Prop :=
  ∀ vf ∈ root.factories, ¬Misses map type state vf ∧ ¬Hides map type state vf

/-- A call that adds a type only where it may. -/
def Sound (root : DefaultValueFactory) (state : TypeMaps) (call : Call) :
    Prop :=
  ∀ map type, adds state call = some (map, type) → Fits root state map type

/-- Each call of a sequence is sound where it is made. -/
def SoundAlong (root : DefaultValueFactory) : TypeMaps → List Call → Prop
  | _, [] => True
  | state, call :: calls => Sound root state call ∧
      ∀ type next, perform state call = .ok (type, next) →
        SoundAlong root next calls

section Lookups

variable {state next : TypeMaps} {name : JavaString}

theorem Passes.nil : Passes state [] name :=
  nofun

theorem Passes.cons {map : Nat} {maps : List Nat}
    (absent : (state map).byName name = none)
    (locked : (state map).locked = true)
    (passes : Passes state maps name) : Passes state (map :: maps) name :=
  List.forall_mem_cons.mpr ⟨⟨absent, locked⟩, passes⟩

/-- A map that has the name, or is locked, is left as it is. -/
theorem get_present {map : Nat} {type : TypeObject}
    (present : (state map).byName name = some type) :
    state.get map name = .ok (some type, state) := by
  rw [TypeMaps.get, IdNameMap.getByName, present]
  change Except.ok (_, Function.update state map (state map)) = _
  rw [Function.update_eq_self]

theorem get_locked {map : Nat} (absent : (state map).byName name = none)
    (locked : (state map).locked = true) :
    state.get map name = .ok (none, state) := by
  rw [TypeMaps.get, IdNameMap.getByName, absent]
  dsimp only
  rw [if_pos locked]
  change Except.ok (_, Function.update state map (state map)) = _
  rw [Function.update_eq_self]

/-- A map that makes a type. -/
theorem get_makes {map : Nat} {result : Option TypeObject}
    (absent : (state map).byName name = none)
    (opened : (state map).locked = false)
    (does : state.get map name = .ok (result, next)) :
    ∃ after, (state map).add (.made (IdName.ofName name) map) =
        .ok (.made (IdName.ofName name) map, after) ∧
      result = some (.made (IdName.ofName name) map) ∧
      next = Function.update state map after := by
  obtain ⟨⟨type, after⟩, get, returned⟩ := bind_eq_ok_iff.mp does
  obtain ⟨rfl, rfl⟩ := Prod.mk.inj (Except.ok.inj returned)
  rcases IdNameMap.getByName_cases get with
    ⟨present, _, locked⟩ | ⟨_, _, made, add⟩
  · have null : type = none := present.symm.trans absent
    exact nomatch (locked null).symm.trans opened
  · exact ⟨after, add, made, rfl⟩

/-- A lookup by name goes past maps to the first one that answers it. -/
theorem getIn_passes {before : List Nat} (passes : Passes state before name)
    (rest : List Nat) :
    getIn state (before ++ rest) name = getIn state rest name := by
  induction before with
  | nil => rfl
  | cons map maps ih =>
      obtain ⟨⟨absent, locked⟩, passes'⟩ := List.forall_mem_cons.mp passes
      rw [List.cons_append, getIn, get_locked absent locked, ok_bind]
      exact ih passes'

theorem getIn_found {before after : List Nat} {map : Nat}
    {type : TypeObject} (passes : Passes state before name)
    (present : (state map).byName name = some type) :
    getIn state (before ++ map :: after) name = .ok (some type, state) := by
  rw [getIn_passes passes, getIn, get_present present]
  rfl

/-- What a lookup by name comes to. -/
theorem getIn_cases {maps : List Nat} {result : Option TypeObject}
    (does : getIn state maps name = .ok (result, next)) :
    (makes state maps name = none ∧ next = state ∧
      ∀ type, result = some type → ∃ before map after,
        maps = before ++ map :: after ∧ Passes state before name ∧
          (state map).byName name = some type) ∨
    (∃ before map after type newMap,
      maps = before ++ map :: after ∧ Passes state before name ∧
      makes state maps name = some (map, type) ∧
      type.idName = IdName.ofName name ∧
      (state map).add type = .ok (type, newMap) ∧
      next = Function.update state map newMap ∧ result = some type) := by
  induction maps with
  | nil =>
      obtain ⟨rfl, rfl⟩ := Prod.mk.inj (Except.ok.inj does)
      exact Or.inl ⟨rfl, rfl, nofun⟩
  | cons map maps ih =>
      cases present : (state map).byName name with
      | some type =>
          rw [getIn, get_present present] at does
          obtain ⟨rfl, rfl⟩ := Prod.mk.inj (Except.ok.inj does)
          refine Or.inl ⟨?_, rfl, ?_⟩
          · rw [makes, present]
            rfl
          · intro other same
            obtain rfl := Option.some.inj same
            exact ⟨[], map, maps, rfl, .nil, present⟩
      | none =>
          by_cases locked : (state map).locked = true
          · have rest : makes state (map :: maps) name =
                makes state maps name := by
              rw [makes, present, if_neg (by simp), if_pos locked]
            rw [getIn, get_locked present locked, ok_bind] at does
            rw [rest]
            rcases ih does with ⟨none, same, found⟩ |
              ⟨before, map', after, type, newMap, split, passes, others⟩
            · refine Or.inl ⟨none, same, ?_⟩
              intro type is
              obtain ⟨before, map', after, split, passes, found'⟩ :=
                found type is
              exact ⟨map :: before, map', after, by rw [split]; rfl,
                passes.cons present locked, found'⟩
            · exact Or.inr ⟨map :: before, map', after, type, newMap,
                by rw [split]; rfl, passes.cons present locked, others⟩
          · have opened : (state map).locked = false := by simpa using locked
            have made : makes state (map :: maps) name =
                some (map, .made (IdName.ofName name) map) := by
              rw [makes, present, if_neg (by simp), if_neg locked]
            obtain ⟨⟨type, middle⟩, get, rest⟩ := bind_eq_ok_iff.mp does
            obtain ⟨newMap, add, rfl, rfl⟩ := get_makes present opened get
            obtain ⟨rfl, rfl⟩ := Prod.mk.inj (Except.ok.inj rest)
            exact Or.inr ⟨[], map, maps, _, newMap, rfl, .nil, made, rfl,
              add, rfl, rfl⟩

/-- A lookup by name that changes nothing has found the type. -/
theorem getTypeByName_iff {vf : DefaultValueFactory} {type : TypeObject} :
    vf.getTypeByName state name = .ok (some type, state) ↔
      ∃ before map after, vf.order = before ++ map :: after ∧
        Passes state before name ∧ (state map).byName name = some type := by
  rw [getTypeByName_eq]
  constructor
  · intro does
    rcases getIn_cases does with ⟨_, _, found⟩ |
      ⟨before, map, after, made, newMap, _, _, _, idName, add, same, _⟩
    · exact found type rfl
    · -- a map that has been added to is not as it was
      have found := (IdNameMap.found_of_add add).2
      obtain ⟨_, _, absent, _⟩ := IdNameMap.add_ok add
      have unchanged : newMap = state map := by
        rw [same, Function.update_self]
      rw [unchanged, absent] at found
      exact nomatch found
  · rintro ⟨before, map, after, split, passes, present⟩
    rw [split]
    exact getIn_found passes present

end Lookups

section Addition

variable {state : TypeMaps} {map : Nat} {type added : TypeObject}
  {newMap : IdNameMap TypeObject}

/-- An addition changes what is found under the id of the type only. -/
theorem findId_other (done : (state map).add type = .ok (added, newMap))
    {id : Int32} (other : id ≠ type.idName.id) (maps : List Nat) :
    findId (Function.update state map newMap) maps id =
      findId state maps id := by
  obtain ⟨_, _, _, _, rfl⟩ := IdNameMap.add_ok done
  induction maps with
  | nil => rfl
  | cons first maps ih =>
      rw [findId_cons, findId_cons, ih]
      by_cases same : first = map
      · subst same
        rw [Function.update_self]
        exact congrArg (Option.or · _) (Function.update_of_ne other ..)
      · rw [Function.update_of_ne same]

theorem findId_elsewhere {maps : List Nat} (elsewhere : map ∉ maps)
    (id : Int32) :
    findId (Function.update state map newMap) maps id =
      findId state maps id := by
  induction maps with
  | nil => rfl
  | cons first maps ih =>
      obtain ⟨different, rest⟩ := List.ne_and_not_mem_of_not_mem_cons elsewhere
      rw [findId_cons, findId_cons, ih rest,
        Function.update_of_ne (Ne.symm different)]

/-- What an addition puts under the id of the type. -/
theorem findId_added (done : (state map).add type = .ok (added, newMap))
    {before : List Nat} (first : map ∉ before) (after : List Nat) :
    findId (Function.update state map newMap) (before ++ map :: after)
        type.idName.id =
      (findId state before type.idName.id).or (some type) := by
  have found : newMap.byId type.idName.id = some type :=
    (IdNameMap.found_of_add done).1
  rw [findId_append, findId_elsewhere first, findId_cons,
    Function.update_self, found]
  rfl

/-- What was there before. -/
theorem findId_around (done : (state map).add type = .ok (added, newMap))
    (before after : List Nat) :
    findId state (before ++ map :: after) type.idName.id =
      (findId state before type.idName.id).or
        (findId state after type.idName.id) := by
  obtain ⟨_, absent, _⟩ := IdNameMap.add_ok done
  have absent' : (state map).byId type.idName.id = none := absent
  rw [findId_append, findId_cons, absent', Option.none_or]

/-- The maps that a lookup passes are locked and are not added to. -/
theorem not_mem_of_passes
    (done : (state map).add type = .ok (added, newMap)) {maps : List Nat}
    {name : JavaString} (passes : Passes state maps name) : map ∉ maps := by
  intro mem
  obtain ⟨opened, _⟩ := IdNameMap.add_ok done
  exact nomatch opened.symm.trans (passes map mem).2

theorem passes_update_iff {maps : List Nat} (elsewhere : map ∉ maps)
    (name : JavaString) :
    Passes (Function.update state map newMap) maps name ↔
      Passes state maps name := by
  refine forall₂_congr fun other mem => ?_
  have different : other ≠ map := by
    rintro rfl
    exact elsewhere mem
  rw [Function.update_of_ne different]

/-- Nothing that was found by name is found no longer. -/
theorem byName_update
    (done : (state map).add type = .ok (added, newMap)) {other : Nat}
    {name : JavaString} {found : TypeObject}
    (present : (state other).byName name = some found) :
    (Function.update state map newMap other).byName name = some found := by
  by_cases same : other = map
  · subst same
    rw [Function.update_self]
    exact (IdNameMap.grows_add done).byName name found present
  · rw [Function.update_of_ne same]
    exact present

/-- What is found by name is found by name after an addition. -/
theorem keeps_name (done : (state map).add type = .ok (added, newMap))
    {vf : DefaultValueFactory} {name : JavaString} {found : TypeObject}
    (before : vf.getTypeByName state name = .ok (some found, state)) :
    vf.getTypeByName (Function.update state map newMap) name =
      .ok (some found, Function.update state map newMap) := by
  obtain ⟨maps, other, after, split, passes, present⟩ :=
    getTypeByName_iff.mp before
  have elsewhere := not_mem_of_passes done passes
  exact getTypeByName_iff.mpr ⟨maps, other, after, split,
    (passes_update_iff elsewhere name).mpr passes,
    byName_update done present⟩

/-- A factory finds by id what it found unless the new type hides it. -/
theorem keeps_id_iff (done : (state map).add type = .ok (added, newMap))
    (vf : DefaultValueFactory) :
    (∀ id found, vf.getTypeById state id = some found →
      vf.getTypeById (Function.update state map newMap) id = some found) ↔
      ¬Hides map type state vf := by
  constructor
  · rintro keeps ⟨before, after, other, split, first, none, hidden, differ⟩
    have found : vf.getTypeById state type.idName.id = some other := by
      rw [getTypeById_eq, split, findId_around done, none, hidden]
      rfl
    have kept := keeps _ _ found
    rw [getTypeById_eq, split, findId_added done first, none] at kept
    exact differ (Option.some.inj kept).symm
  · intro shown id found present
    rw [getTypeById_eq] at present ⊢
    by_cases same : id = type.idName.id
    · subst same
      by_cases consults : map ∈ vf.order
      · obtain ⟨before, after, split, first⟩ :=
          List.eq_append_cons_of_mem consults
        rw [split, findId_around done] at present
        rw [split, findId_added done first]
        cases earlier : findId state before type.idName.id with
        | some other =>
            rw [earlier] at present
            exact present
        | none =>
            rw [earlier, Option.none_or] at present
            by_contra differ
            exact shown ⟨before, after, found, split, first, earlier,
              present, fun is => differ (congrArg some is.symm)⟩
      · rw [findId_elsewhere consults]
        exact present
    · rw [findId_other done same]
      exact present
/-- A lookup by name that passes maps has not passed the type. -/
theorem findId_passed (consistent : ∀ map, (state map).Consistent)
    {before : List Nat} (passes : Passes state before type.idName.name)
    (id : Int32) : findId state before id ≠ some type := by
  intro found
  obtain ⟨other, mem, present⟩ := List.exists_of_findSome?_eq_some found
  have byName := ((consistent other).ofId id type present).2
  exact nomatch (passes other mem).1.symm.trans byName

/-- Where an earlier map has the type, the first one with its id has. -/
theorem findId_isSome {maps : List Nat} {other : Nat} (mem : other ∈ maps)
    {id : Int32} {found : TypeObject}
    (present : (state other).byId id = some found) :
    (findId state maps id).isSome := by
  rw [findId, List.findSome?_isSome_iff]
  exact ⟨other, mem, by rw [present]; rfl⟩

/-- A type found before the new one keeps its place under its id. -/
theorem byId_of_earlier (consistent : ∀ map, (state map).Consistent)
    (done : (state map).add type = .ok (added, newMap))
    {before after : List Nat} {other : Nat} {found : TypeObject}
    {name : JavaString} (earlier : map ∉ before) (different : other ≠ map)
    (present : (state other).byName name = some found)
    (byId : findId state (before ++ other :: after) found.idName.id =
      some found) :
    findId (Function.update state map newMap) (before ++ other :: after)
      found.idName.id = some found := by
  by_cases same : found.idName.id = type.idName.id
  · have byId' : (state other).byId found.idName.id = some found :=
      ((consistent other).ofName name found present).2
    have first : (findId state (before ++ [other]) found.idName.id).isSome :=
      findId_isSome (by simp) byId'
    have elsewhere : map ∉ before ++ [other] := by
      rw [List.mem_append, List.mem_singleton]
      rintro (mem | is)
      · exact earlier mem
      · exact different is.symm
    have split : before ++ other :: after =
        (before ++ [other]) ++ after := by simp
    rw [split, findId_append, Option.or_of_isSome first] at byId
    rw [split, findId_append, findId_elsewhere elsewhere,
      Option.or_of_isSome first]
    exact byId
  · rw [findId_other done same]
    exact byId

/-- What a lookup by name finds after an addition. -/
theorem agrees_iff (consistent : ∀ map, (state map).Consistent)
    (done : (state map).add type = .ok (added, newMap))
    {root : DefaultValueFactory} (agrees : Agrees root state) :
    Agrees root (Function.update state map newMap) ↔
      ∀ vf ∈ root.factories, ¬Misses map type state vf := by
  obtain ⟨opened, absent, _, _, same⟩ := IdNameMap.add_ok done
  have absent' : (state map).byId type.idName.id = none := absent
  have stillOpen : newMap.locked = false := by
    rw [same]
    exact opened
  have found := IdNameMap.found_of_add done
  constructor
  · rintro agrees' vf inside ⟨before, after, split, first, passes, taken⟩
    have byName : vf.getTypeByName (Function.update state map newMap)
        type.idName.name =
          .ok (some type, Function.update state map newMap) := by
      refine getTypeByName_iff.mpr ⟨before, map, after, split,
        (passes_update_iff first _).mpr passes, ?_⟩
      rw [Function.update_self]
      exact found.2
    have byId := agrees' vf inside _ _ byName
    rw [getTypeById_eq, split, findId_added done first] at byId
    cases earlier : findId state before type.idName.id with
    | none => exact taken earlier
    | some other =>
        rw [earlier, Option.some_or] at byId
        exact findId_passed consistent passes _ (earlier.trans byId)
  · intro fits vf inside name other byName
    obtain ⟨before, place, after, split, passes', present⟩ :=
      getTypeByName_iff.mp byName
    have first : map ∉ before := by
      intro mem
      have locked := (passes' map mem).2
      rw [Function.update_self] at locked
      exact nomatch stillOpen.symm.trans locked
    have passes := (passes_update_iff first name).mp passes'
    rw [getTypeById_eq]
    by_cases here : place = map
    · subst here
      rw [Function.update_self] at present
      by_cases named : name = type.idName.name
      · -- the new type itself
        subst named
        obtain rfl := Option.some.inj (found.2.symm.trans present)
        have free : findId state before type.idName.id = none := by
          by_contra taken
          exact fits vf inside ⟨before, after, split, first, passes, taken⟩
        rw [split, findId_added done first, free]
        rfl
      · have present' : (state place).byName name = some other := by
          rw [same] at present
          exact (Function.update_of_ne named ..).symm.trans present
        have byName' := getTypeByName_iff.mpr
          ⟨before, place, after, split, passes, present'⟩
        have byId := agrees vf inside name other byName'
        have itsId := ((consistent place).ofName name other present').2
        have different : other.idName.id ≠ type.idName.id := by
          intro is
          have taken : (state place).byId type.idName.id = some other :=
            is ▸ itsId
          exact nomatch absent'.symm.trans taken
        rw [findId_other done different, ← getTypeById_eq]
        exact byId
    · rw [Function.update_of_ne here] at present
      have byName' := getTypeByName_iff.mpr
        ⟨before, place, after, split, passes, present⟩
      have byId := agrees vf inside name other byName'
      rw [getTypeById_eq, split] at byId
      rw [split]
      exact byId_of_earlier consistent done first here present byId

/-- An addition keeps the promises exactly where the type fits. -/
theorem fits_iff (consistent : ∀ map, (state map).Consistent)
    (done : (state map).add type = .ok (added, newMap))
    {root : DefaultValueFactory} (agrees : Agrees root state) :
    Agrees root (Function.update state map newMap) ∧
        Keeps root state (Function.update state map newMap) ↔
      Fits root state map type := by
  have keeps : Keeps root state (Function.update state map newMap) ↔
      ∀ vf ∈ root.factories, ¬Hides map type state vf := by
    refine forall₂_congr fun vf _ => ?_
    rw [keeps_id_iff done]
    exact and_iff_left fun _ _ => keeps_name done
  rw [agrees_iff consistent done agrees, keeps]
  exact forall₂_and.symm

theorem consistent_update (consistent : ∀ map, (state map).Consistent)
    (done : (state map).add type = .ok (added, newMap)) (other : Nat) :
    (Function.update state map newMap other).Consistent := by
  by_cases same : other = map
  · subst same
    rw [Function.update_self]
    exact (consistent other).add done
  · rw [Function.update_of_ne same]
    exact consistent other

end Addition

section Runs

variable {root : DefaultValueFactory} {state next : TypeMaps} {call : Call}
  {result : Option TypeObject}

/-- A call leaves the maps as they are or adds one type. -/
theorem perform_cases (does : perform state call = .ok (result, next)) :
    (adds state call = none ∧ next = state) ∨
      ∃ map type newMap, adds state call = some (map, type) ∧
        (state map).add type = .ok (type, newMap) ∧
        next = Function.update state map newMap := by
  cases call with
  | getTypeById vf id =>
      obtain ⟨_, rfl⟩ := Prod.mk.inj (Except.ok.inj does)
      exact Or.inl ⟨rfl, rfl⟩
  | getTypeByName vf name =>
      rw [perform, getTypeByName_eq] at does
      rcases getIn_cases does with ⟨none, same, _⟩ |
        ⟨_, map, _, type, newMap, _, _, made, _, add, same, _⟩
      · exact Or.inl ⟨none, same⟩
      · exact Or.inr ⟨map, type, newMap, made, add, same⟩
  | addType vf type =>
      obtain ⟨types, dynamicTypes, mixins⟩ := vf
      obtain ⟨last, adding, returned⟩ := bind_eq_ok_iff.mp does
      obtain ⟨_, rfl⟩ := Prod.mk.inj (Except.ok.inj returned)
      cases added : (state dynamicTypes).add type with
      | ok pair =>
          obtain ⟨t, newMap⟩ := pair
          obtain ⟨_, _, _, rfl, _⟩ := IdNameMap.add_ok added
          rw [addType, added] at adding
          refine Or.inr ⟨dynamicTypes, t, newMap, ?_, added,
            (Except.ok.inj adding).symm⟩
          rw [adds, added]
      | error thrown =>
          rw [addType, added] at adding
          cases thrown with
          | illegalArgumentException message =>
              refine Or.inl ⟨?_, (Except.ok.inj adding).symm⟩
              rw [adds, added]
          | _ => exact nomatch adding

/-- What a call returns is found where ids and names agree. -/
theorem answered (does : perform state call = .ok (result, next))
    (inside : call.factory ∈ root.factories) (agrees : Agrees root next) :
    Answered next call result := by
  cases call with
  | getTypeById vf id =>
      obtain ⟨rfl, rfl⟩ := Prod.mk.inj (Except.ok.inj does)
      cases found : vf.getTypeById state id with
      | none => trivial
      | some type => exact found
  | getTypeByName vf name =>
      cases result with
      | none => trivial
      | some type =>
          have byName : vf.getTypeByName next name =
              .ok (some type, next) := by
            have does' := does
            rw [perform, getTypeByName_eq] at does'
            rcases getIn_cases does' with ⟨_, rfl, _⟩ |
              ⟨before, map, after, made, newMap, split, passes, _, named,
                add, rfl, is⟩
            · exact does
            · obtain rfl := Option.some.inj is
              refine getTypeByName_iff.mpr ⟨before, map, after, split,
                (passes_update_iff (not_mem_of_passes add passes) _).mpr
                  passes, ?_⟩
              have found := (IdNameMap.found_of_add add).2
              have itsName : type.idName.name = name := by rw [named]; rfl
              rw [Function.update_self, ← itsName]
              exact found
          exact ⟨byName, agrees vf inside name type byName⟩
  | addType vf type => cases result <;> trivial

/-- One call keeps the promises exactly where it is sound. -/
theorem perform_promised (consistent : ∀ map, (state map).Consistent)
    (agrees : Agrees root state)
    (does : perform state call = .ok (result, next)) :
    ((∀ map, (next map).Consistent) ∧
      (Agrees root next ∧ Keeps root state next ↔ Sound root state call)) := by
  rcases perform_cases does with ⟨none, rfl⟩ |
    ⟨map, type, newMap, added, done, rfl⟩
  · refine ⟨consistent, iff_of_true ⟨agrees, fun vf _ => ?_⟩ ?_⟩
    · exact ⟨fun _ _ found => found, fun _ _ found => found⟩
    · intro map type some
      exact nomatch none.symm.trans some
  · refine ⟨consistent_update consistent done, ?_⟩
    rw [fits_iff consistent done agrees]
    constructor
    · intro fits map' type' added'
      obtain ⟨rfl, rfl⟩ := Prod.mk.inj
        (Option.some.inj (added.symm.trans added'))
      exact fits
    · exact fun sound => sound map type added

/-- A factory with a mixin, all types of which are dynamic. -/
def mixed : DefaultValueFactory :=
  node 0 1 [node 2 3 []]

/-- No types, of which those of the maps 0 and 2 are static. -/
def untyped : TypeMaps :=
  fun map => if map = 0 ∨ map = 2 then IdNameMap.empty.lock else .empty

theorem consistent_untyped (map : Nat) : (untyped map).Consistent := by
  unfold untyped
  split_ifs
  · exact IdNameMap.consistent_empty.lock
  · exact IdNameMap.consistent_empty

/-- A type is added to a factory and made in its mixin. -/
def addedAndMade : List Call :=
  [.addType mixed (.given (.ofName (text "N")) 0),
    .getTypeByName mixed (text "N")]

theorem run_addedAndMade : ∃ final, run untyped addedAndMade = .ok final := by
  have returns : (run untyped addedAndMade).isOk = true := by
    decide +kernel
  cases runs : run untyped addedAndMade with
  | ok final => exact ⟨final, rfl⟩
  | error thrown =>
      rw [runs] at returns
      exact nomatch returns

end Runs

end DefaultValueFactory

end Etch.Java
