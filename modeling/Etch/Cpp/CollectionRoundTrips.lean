import Etch.Cpp.CollectionSerializers
import Etch.Cpp.NativeArrayBounds

/-!
# What the C++ serializers of collections bring back

A collection whose array has a length comes back as it was.  An array that a
peer has sent is read in as if it were one of objects: where it is not, where a
key is without its value, or where a key is `NULL`, the program has no defined
behaviour.
-/

namespace Etch.Cpp

open Library.Descent
open Library.Keyed

variable {Object : Type}

section Items

variable {heap : Heap (EtchObjectPtr Object)} {mData : Nat}
  {stack : Nat → Fin 8 → Int}

theorem getItem_inside {elements : List (EtchObjectPtr Object)}
    (is : heap.objects mData = .etchArrayData elements) {i : Nat}
    {value : EtchObjectPtr Object} (found : elements[i]? = some value)
    (item : EtchObjectPtr Object) :
    getItem heap mData stack i item = some value := by
  have inside := (List.getElem?_eq_some_iff.mp found).1
  have loaded : load elements (i : Int) = some value := by
    rw [load, if_pos (Int.natCast_nonneg i), Int.toNat_natCast, found]
  have size : (Pos.single i (stack i)).size = 1 := rfl
  have level : (Call.getElement true).level heap mData
      (Pos.single i (stack i)) mData (some (i : Int)) 0 = some (.finish
        { status := .ETCH_OK, heap := heap, result := some value }) := by
    simp [Call.level, getElement, is, size, loaded, inside.le]
  rw [getItem, Call.outcome, Pos.entries_single, run, level]
  rfl

/-- The entry behind the last one is not refused. -/
theorem getItem_end {elements : List (EtchObjectPtr Object)}
    (is : heap.objects mData = .etchArrayData elements)
    (item : EtchObjectPtr Object) :
    getItem heap mData stack elements.length item = none := by
  have outside : load elements (elements.length : Int) = none := by
    rw [load, if_pos (Int.natCast_nonneg _), Int.toNat_natCast]
    exact List.getElem?_eq_none (Nat.le_refl _)
  have size (stack : Fin 8 → Int) :
      (Pos.single elements.length stack).size = 1 := rfl
  have level : (Call.getElement true).level heap mData
      (Pos.single elements.length (stack elements.length)) mData
      (some (elements.length : Int)) 0 = none := by
    simp [Call.level, getElement, is, size, outside]
  rw [getItem, Call.outcome, Pos.entries_single, run, level]
  rfl

/-- Below an array of arrays nothing is got with one entry. -/
theorem getItem_array {mDim : Int} {rows : List (Option Nat)}
    (is : heap.objects mData = .etchArray mDim rows) {i : Nat}
    {item next : EtchObjectPtr Object}
    (got : getItem heap mData stack i item = some next) : next = item := by
  obtain ⟨outcome, runs, same⟩ := Option.bind_eq_some_iff.mp got
  have size : (Pos.single i (stack i)).size = 1 := rfl
  have refused : ∀ (entry : Option Int) (index object : Nat)
      (rows : List (Option Nat)) (result : Outcome (EtchObjectPtr Object)),
      getFromArray heap (Pos.single i (stack i)) rows entry index =
        some (.finish result) → result.result = none := by
    intro entry index object rows result finishes
    unfold getFromArray at finishes
    split_ifs at finishes
    · cases finishes
      rfl
    · obtain ⟨position, _, finishes⟩ := Option.bind_eq_some_iff.mp finishes
      split_ifs at finishes
      · cases finishes
        rfl
      · obtain ⟨row, _, finishes⟩ := Option.bind_eq_some_iff.mp finishes
        cases row with
        | none =>
            cases finishes
            rfl
        | some child => cases finishes
  have nothing : outcome.result = none := by
    rw [Call.outcome, Pos.entries_single, run] at runs
    split at runs
    · rename_i result finishes
      obtain rfl := Option.some.inj runs
      simp only [Call.level, getElement, is] at finishes
      exact refused _ _ mData _ _ finishes
    · refine @of_run _ _ _ _ (fun outcome : Outcome (EtchObjectPtr Object) =>
        outcome.result = none) _ _ _ _
        (fun later node key result order finishes => ?_) runs
      simp only [Call.level, getElement] at finishes
      cases object : heap.objects node with
      | etchArrayData elements =>
          have other : (Pos.single i (stack i)).size < later ∨
              (Pos.single i (stack i)).size ≠ later + 1 := by omega
          rw [object] at finishes
          dsimp only at finishes
          rw [if_pos other] at finishes
          cases finishes
          rfl
      | etchArray mDim rows =>
          rw [object] at finishes
          exact refused _ _ node _ _ finishes
    · cases runs
  rw [nothing] at same
  exact (Option.some.inj same).symm

theorem setItems_data {items front back : List (EtchObjectPtr Object)}
    {i : Nat} (is : heap.objects mData = .etchArrayData (front ++ back))
    (before : front.length = i) (room : back.length = items.length) :
    ∃ next, setItems mData stack heap i items = some next ∧
      next.objects mData = .etchArrayData (front ++ items) := by
  induction items generalizing heap front back i with
  | nil =>
      obtain rfl := List.length_eq_zero_iff.mp room
      exact ⟨heap, rfl, is⟩
  | cons item items ih =>
      cases back with
      | nil => cases room
      | cons old back =>
          have inside : i < (front ++ old :: back).length := by
            rw [List.length_append, List.length_cons]
            omega
          have done := @run_setElement_data _ heap mData _ i item (stack i) is
          rw [if_pos inside] at done
          have set : (front ++ old :: back).set i item =
              (front ++ [item]) ++ back := by
            rw [← before, List.set_append_right _ _ (Nat.le_refl _),
              Nat.sub_self, List.set_cons_zero, List.append_assoc]
            rfl
          rw [set] at done
          have put : (heap.put mData
              (.etchArrayData ((front ++ [item]) ++ back))).objects mData =
                .etchArrayData ((front ++ [item]) ++ back) :=
            Function.update_self ..
          obtain ⟨next, rest, is'⟩ := ih put
            (by rw [List.length_append, before]) (Nat.succ.inj room)
          refine ⟨next, ?_, ?_⟩
          · exact Option.bind_eq_some_iff.mpr ⟨_, done, rest⟩
          · rw [is', List.append_assoc]
            rfl

/-- The item behind the last one is not refused. -/
theorem setItems_short {items elements : List (EtchObjectPtr Object)}
    {i : Nat} (is : heap.objects mData = .etchArrayData elements)
    (inside : i ≤ elements.length)
    (short : elements.length < i + items.length) :
    setItems mData stack heap i items = none := by
  induction items generalizing heap elements i with
  | nil => exact absurd short (Nat.not_lt.mpr inside)
  | cons item items ih =>
      have done := @run_setElement_data _ heap mData _ i item (stack i) is
      rw [List.length_cons] at short
      by_cases room : i < elements.length
      · rw [if_pos room] at done
        refine Option.bind_eq_none_iff.mpr fun outcome ran => ?_
        obtain rfl := Option.some.inj (done.symm.trans ran)
        exact ih (Function.update_self ..) (by rw [List.length_set]; omega)
          (by rw [List.length_set]; omega)
      · rw [if_neg room, if_pos (by omega)] at done
        refine Option.bind_eq_none_iff.mpr fun outcome ran => ?_
        cases done.symm.trans ran

end Items

/-- The objects in an array; there are none in one of arrays. -/
def NativeArray.contents : NativeArray Object →
    Option (List (EtchObjectPtr Object))
  | objects heap mData =>
      match heap.objects mData with
      | .etchArrayData elements => some elements
      | .etchArray _ rows => if rows.isEmpty then some [] else none
  | others => none

theorem NativeArray.contents_data {heap : Heap (EtchObjectPtr Object)}
    {mData : Nat} {elements : List (EtchObjectPtr Object)}
    (is : heap.objects mData = .etchArrayData elements) :
    (objects heap mData).contents = some elements := by
  rw [contents, is]

/-! ## Export and import -/

namespace CollectionSerializer

variable (serializer : CollectionSerializer)

/-- The struct that an array is exported in. -/
def structOf (array : NativeArray Object) : StructValue Object where
  mType := serializer.mType
  mTable := Function.update (fun _ => none) serializer.mField (some array)

theorem structOf_field (array : NativeArray Object) :
    (serializer.structOf array).mTable serializer.mField = some array := by
  rw [structOf]
  dsimp only
  rw [Function.update_self]

/-- A validator of objects takes every array. -/
theorem put_array (level : EtchLevel) (array : NativeArray Object) :
    StructValue.put ⟨serializer.mType, fun _ => none⟩ level (some validator)
      serializer.mField array = some (serializer.structOf array) := by
  have valid : validator.validate (described array) = true := by
    cases array <;> rfl
  unfold StructValue.put
  by_cases unchecked : level = .LEVEL_NONE
  · exact if_pos unchecked
  · exact (if_neg unchecked).trans (if_pos valid)

variable (level : EtchLevel) (heap : Heap (EtchObjectPtr Object))
  (stack : Nat → Fin 8 → Int) {items : List (EtchObjectPtr Object)}

theorem exportItems_eq (small : items.length < 2 ^ 31) :
    ∃ array : NativeArray Object, array.contents = some items ∧
      serializer.exportItems level heap stack
          (Int.bmod items.length (2 ^ 32)) items =
        some (.ETCH_OK, some (serializer.structOf array)) := by
  have length : Int.bmod items.length (2 ^ 32) = items.length :=
    Int.bmod_eq_of_le (by omega) (by omega)
  have made : (heap.allocate (.make items.length 1)).objects heap.next =
      .etchArrayData ([] ++ List.replicate items.length none) := by
    refine (Function.update_self ..).trans ?_
    rw [EtchArrayBase.make, if_pos rfl, Int.toNat_natCast]
    rfl
  obtain ⟨next, set, is⟩ := @setItems_data _ _ _ stack items _ _ 0 made rfl
    List.length_replicate
  refine ⟨.objects next heap.next, NativeArray.contents_data is, ?_⟩
  unfold exportItems
  rw [length, if_neg (by omega)]
  dsimp only
  rw [set]
  dsimp only [Option.bind_eq_bind, Option.bind_some]
  rw [serializer.put_array]
  rfl

/-- A length that is not an `int32_t` is not the one of the array. -/
theorem exportItems_eq_none (large : ¬ items.length < 2 ^ 31) :
    serializer.exportItems level heap stack
      (Int.bmod items.length (2 ^ 32)) items = none := by
  unfold exportItems
  split_ifs with negative
  · rfl
  · have above : Int.bmod items.length (2 ^ 32) < 2 ^ 31 :=
      Int.bmod_lt (by decide)
    obtain ⟨length, is⟩ := Int.eq_ofNat_of_zero_le (Int.not_lt.mp negative)
    have made : (heap.allocate (.make length 1)).objects heap.next =
        .etchArrayData (List.replicate length none) := by
      refine (Function.update_self ..).trans ?_
      rw [EtchArrayBase.make, if_pos rfl, Int.toNat_natCast]
      rfl
    rw [is] at above ⊢
    have short : (List.replicate length (none : EtchObjectPtr Object)).length <
        0 + items.length := by
      rw [List.length_replicate]
      omega
    have stopped : setItems heap.next stack _ 0 items = none :=
      setItems_short made (Nat.zero_le _) short
    dsimp only
    rw [stopped]
    rfl

/-- The import is defined, and gives an error or what is asked for. -/
def Faithful {Collection : Type}
    (imported : Option (Status × Option Collection))
    (Asked : Collection → Prop) : Prop :=
  ∃ status result, imported = some (status, result) ∧
    (status = .ETCH_OK → ∃ collection, result = some collection ∧
      Asked collection)

variable {Collection : Type}
  {read : Heap (EtchObjectPtr Object) → Nat →
    Option (Status × Option Collection)}

theorem importArray_structOf {heap : Heap (EtchObjectPtr Object)}
    {mData : Nat} :
    serializer.importArray
      (some (serializer.structOf (.objects heap mData))) read =
        read heap mData := by
  have type : (serializer.structOf (.objects heap mData)).mType =
      serializer.mType := rfl
  unfold importArray
  dsimp only
  rw [if_neg (not_not.mpr type), structOf_field]

/-- What a struct has to hold for the import from it. -/
def Fits (value : StructValue Object)
    (fit : List (EtchObjectPtr Object) → Prop) : Prop :=
  value.mType = serializer.mType → ∀ array,
    value.mTable serializer.mField = some array →
      ∃ elements, array.contents = some elements ∧ fit elements

/-- A struct is imported as it is asked for if it is so with arrays. -/
theorem faithful_iff {Asked : List (EtchObjectPtr Object) → Collection → Prop}
    {fit : List (EtchObjectPtr Object) → Prop} (value : StructValue Object)
    (reads : ∀ heap mData elements,
      (NativeArray.objects heap mData).contents = some elements →
        (Faithful (read heap mData) (Asked elements) ↔ fit elements))
    (nested : ∀ heap mData,
      (NativeArray.objects heap mData).contents = none →
        ¬ Faithful (read heap mData) fun _ => False) :
    Faithful (serializer.importArray (some value) read) (fun collection =>
        ∃ array elements, value.mTable serializer.mField = some array ∧
          array.contents = some elements ∧ Asked elements collection) ↔
      serializer.Fits value fit := by
  unfold importArray Fits
  dsimp only
  by_cases type : value.mType = serializer.mType
  · rw [if_neg (not_not.mpr type)]
    cases field : value.mTable serializer.mField with
    | none =>
        refine iff_of_true ⟨_, _, rfl, fun ok => by cases ok⟩ ?_
        intro _ array there
        cases there
    | some array =>
        cases array with
        | others =>
            refine iff_of_false ?_ fun fits => ?_
            · rintro ⟨status, result, imported, -⟩
              cases imported
            · obtain ⟨elements, contents, -⟩ := fits type _ rfl
              cases contents
        | objects heap mData =>
            cases contents : (NativeArray.objects heap mData).contents with
            | none =>
                refine iff_of_false ?_ fun fits => ?_
                · rintro ⟨status, result, imported, asked⟩
                  refine nested heap mData contents
                    ⟨status, result, imported, fun ok => ?_⟩
                  obtain ⟨_, _, _, elements, there, contents', _⟩ := asked ok
                  obtain rfl := Option.some.inj there
                  cases contents.symm.trans contents'
                · obtain ⟨elements, contents', -⟩ := fits type _ rfl
                  cases contents.symm.trans contents'
            | some elements =>
                refine Iff.trans ?_ ((reads heap mData elements contents).trans
                  ?_)
                · refine exists_congr fun status => exists_congr fun result =>
                    and_congr_right fun _ => forall_congr' fun _ =>
                      exists_congr fun collection => and_congr_right fun _ => ?_
                  constructor
                  · rintro ⟨_, _, there, contents', asked⟩
                    obtain rfl := Option.some.inj there
                    obtain rfl :=
                      Option.some.inj (contents.symm.trans contents')
                    exact asked
                  · intro asked
                    exact ⟨_, elements, rfl, contents, asked⟩
                · constructor
                  · rintro fits _ _ there
                    obtain rfl := Option.some.inj there
                    exact ⟨elements, contents, fits⟩
                  · intro fits
                    obtain ⟨_, contents', fits⟩ := fits type _ rfl
                    obtain rfl :=
                      Option.some.inj (contents.symm.trans contents')
                    exact fits
  · rw [if_pos type]
    exact iff_of_true ⟨_, _, rfl, fun ok => by cases ok⟩
      fun type' => absurd type' type

end CollectionSerializer

open CollectionSerializer

/-- An array is one of objects, or an empty one of arrays. -/
theorem cases_of_contents {heap : Heap (EtchObjectPtr Object)} {mData : Nat}
    {elements : List (EtchObjectPtr Object)}
    (contents : (NativeArray.objects heap mData).contents = some elements) :
    heap.objects mData = .etchArrayData elements ∨
      elements = [] ∧ (heap.objects mData).getLength = 0 := by
  rw [NativeArray.contents] at contents
  cases is : heap.objects mData with
  | etchArrayData mData =>
      rw [is] at contents
      exact .inl (congrArg _ (Option.some.inj contents))
  | etchArray mDim rows =>
      rw [is] at contents
      dsimp only at contents
      split_ifs at contents with empty
      rw [List.isEmpty_iff] at empty
      subst empty
      exact .inr ⟨(Option.some.inj contents).symm, rfl⟩

theorem rows_of_contents {heap : Heap (EtchObjectPtr Object)} {mData : Nat}
    (contents : (NativeArray.objects heap mData).contents = none) :
    ∃ mDim rows, heap.objects mData = .etchArray mDim rows ∧
      ∃ length, (heap.objects mData).getLength = length + 1 := by
  rw [NativeArray.contents] at contents
  cases is : heap.objects mData with
  | etchArrayData mData =>
      rw [is] at contents
      cases contents
  | etchArray mDim rows =>
      rw [is] at contents
      dsimp only at contents
      cases rows with
      | nil => cases contents
      | cons row rows => exact ⟨mDim, row :: rows, rfl, rows.length, rfl⟩

namespace EtchListSerializer

variable {serializer : CollectionSerializer}
  {heap : Heap (EtchObjectPtr Object)} {mData : Nat}
  {stack : Nat → Fin 8 → Int}

theorem addItems_data {elements : List (EtchObjectPtr Object)}
    (is : heap.objects mData = .etchArrayData elements) {rounds i : Nat}
    (whole : i + rounds = elements.length)
    (list : List (EtchObjectPtr Object)) :
    addItems heap mData stack rounds i list =
      some (list ++ elements.drop i) := by
  induction rounds generalizing i list with
  | zero =>
      rw [addItems, List.drop_of_length_le (by omega), List.append_nil]
  | succ rounds ih =>
      have inside : i < elements.length := by omega
      rw [addItems, getItem_inside is (List.getElem?_eq_getElem inside)]
      refine (ih (by omega) _).trans ?_
      rw [List.drop_eq_getElem_cons inside, List.append_assoc]
      rfl

/-- The list that comes back of one that is exported. -/
def RoundTrips (serializer : CollectionSerializer) (level : EtchLevel)
    (heap : Heap (EtchObjectPtr Object)) (stack later : Nat → Fin 8 → Int)
    (list : List (EtchObjectPtr Object)) : Prop :=
  ∃ value, exportValue serializer (some level) heap stack (.collection list) =
      some (.ETCH_OK, some value) ∧
    importValue serializer later (some value) = some (.ETCH_OK, some list)

theorem roundTrips_iff (level : EtchLevel)
    (heap : Heap (EtchObjectPtr Object)) (stack later : Nat → Fin 8 → Int)
    (list : List (EtchObjectPtr Object)) :
    RoundTrips serializer level heap stack later list ↔
      list.length < 2 ^ 31 := by
  by_cases small : list.length < 2 ^ 31
  · refine iff_of_true ?_ small
    obtain ⟨array, contents, exported⟩ :=
      serializer.exportItems_eq level heap stack small
    refine ⟨_, exported, ?_⟩
    cases array with
    | others => cases contents
    | objects heap mData =>
        unfold importValue
        rw [serializer.importArray_structOf]
        rcases cases_of_contents contents with is | ⟨rfl, empty⟩
        · have length : (heap.objects mData).getLength = list.length := by
            rw [is]
            rfl
          rw [length, addItems_data is (Nat.zero_add _)]
          rfl
        · rw [empty]
          rfl
  · refine iff_of_false ?_ small
    rintro ⟨value, exported, -⟩
    cases (serializer.exportItems_eq_none level heap stack small).symm.trans
      exported

/-- What is imported is an error or the list of the array. -/
def ImportFaithful (serializer : CollectionSerializer)
    (stack : Nat → Fin 8 → Int) (value : StructValue Object) : Prop :=
  Faithful (importValue serializer stack (some value)) fun list =>
    ∃ array elements, value.mTable serializer.mField = some array ∧
      array.contents = some elements ∧ list = elements

theorem importFaithful_iff (stack : Nat → Fin 8 → Int)
    (value : StructValue Object) :
    ImportFaithful serializer stack value ↔
      serializer.Fits value fun _ => True := by
  refine serializer.faithful_iff value ?_ ?_
  · intro heap mData elements contents
    refine iff_of_true ?_ trivial
    rcases cases_of_contents contents with is | ⟨rfl, empty⟩
    · have length : (heap.objects mData).getLength = elements.length := by
        rw [is]
        rfl
      rw [length, addItems_data is (Nat.zero_add _)]
      exact ⟨_, _, rfl, fun _ => ⟨_, rfl, rfl⟩⟩
    · rw [empty]
      exact ⟨_, _, rfl, fun _ => ⟨_, rfl, rfl⟩⟩
  · rintro heap mData - ⟨status, result, imported, asked⟩
    obtain ⟨list, _, same⟩ := Option.bind_eq_some_iff.mp imported
    obtain ⟨rfl, rfl⟩ := Prod.mk.inj (Option.some.inj same)
    obtain ⟨_, _, false⟩ := asked rfl
    exact false

end EtchListSerializer

namespace EtchSetSerializer

variable {serializer : CollectionSerializer} {sets : HashSets Object}
  {equals : Object → Object → Bool} {heap : Heap (EtchObjectPtr Object)}
  {mData : Nat} {stack : Nat → Fin 8 → Int}

/-- The loop of `importValue`, by the items. -/
def putAll (sets : HashSets Object) : sets.HashSet →
    List (EtchObjectPtr Object) → Option (Status × Option sets.HashSet)
  | set, [] => some (.ETCH_OK, some set)
  | _, none :: _ => none
  | set, some value :: items =>
      if (sets.put set value).1 ≠ .ETCH_OK then
        some ((sets.put set value).1, none)
      else
        putAll sets (sets.put set value).2 items

theorem putItems_data {elements : List (EtchObjectPtr Object)}
    (is : heap.objects mData = .etchArrayData elements) {rounds i : Nat}
    (whole : i + rounds = elements.length) (ptr : EtchObjectPtr Object)
    (set : sets.HashSet) :
    putItems sets heap mData stack rounds i ptr set =
      putAll sets set (elements.drop i) := by
  induction rounds generalizing i ptr set with
  | zero =>
      rw [List.drop_of_length_le (by omega)]
      rfl
  | succ rounds ih =>
      have inside : i < elements.length := by omega
      rw [putItems, getItem_inside is (List.getElem?_eq_getElem inside),
        List.drop_eq_getElem_cons inside]
      cases elements[i] with
      | none => rfl
      | some value =>
          rw [putAll, ← ih (by omega)]
          rfl

/-- The keys are apart, from each other and from the elements of a set. -/
def Fresh (sets : HashSets Object) (equals : Object → Object → Bool)
    (set : sets.HashSet) (keys : List Object) : Prop :=
  Apart equals keys ∧
    ∀ key ∈ keys, ∀ element ∈ sets.elements set, equals element key = false

theorem fresh_cons (correct : sets.Correct equals) {set : sets.HashSet}
    {value : Object} {keys : List Object} :
    Fresh sets equals set (value :: keys) ↔
      (sets.put set value).1 = .ETCH_OK ∧
        Fresh sets equals (sets.put set value).2 keys := by
  constructor
  · rintro ⟨apart, others⟩
    obtain ⟨first, apart⟩ := List.pairwise_cons.mp apart
    rw [List.forall_mem_cons] at others
    obtain ⟨ok, members⟩ := correct.put_other set value others.1
    refine ⟨ok, apart, fun key member element there => ?_⟩
    rcases (members element).mp there with there | rfl
    · exact others.2 key member element there
    · exact first key member
  · rintro ⟨ok, apart, others⟩
    have new : ∀ element ∈ sets.elements set,
        equals element value = false := by
      intro element there
      refine Bool.eq_false_iff.mpr fun again => ?_
      exact correct.put_again set value element there again ok
    have members := (correct.put_other set value new).2
    refine ⟨List.pairwise_cons.mpr ⟨fun key member => ?_, apart⟩,
      List.forall_mem_cons.mpr ⟨new, fun key member element there => ?_⟩⟩
    · exact others key member value ((members value).mpr (.inr rfl))
    · exact others key member element ((members element).mpr (.inl there))

/-- A `NULL` is reached if all keys before it are put. -/
theorem putAll_eq_none_iff (correct : sets.Correct equals)
    (set : sets.HashSet) (items : List (EtchObjectPtr Object)) :
    putAll sets set items = none ↔
      ∃ keys after, items = keys.map some ++ none :: after ∧
        Fresh sets equals set keys := by
  induction items generalizing set with
  | nil =>
      refine iff_of_false (fun same => by cases same) ?_
      rintro ⟨keys, after, same, -⟩
      cases keys <;> cases same
  | cons item items ih =>
      cases item with
      | none =>
          refine iff_of_true rfl ⟨[], items, rfl, .nil, ?_⟩
          exact fun key member => by cases member
      | some value =>
          rw [putAll]
          have next : (∃ keys after,
              some value :: items = keys.map some ++ none :: after ∧
                Fresh sets equals set keys) ↔
              (sets.put set value).1 = .ETCH_OK ∧ ∃ keys after,
                items = keys.map some ++ none :: after ∧
                  Fresh sets equals (sets.put set value).2 keys := by
            constructor
            · rintro ⟨keys, after, same, fresh⟩
              cases keys with
              | nil => cases same
              | cons key keys =>
                  obtain ⟨first, rest⟩ := List.cons.inj same
                  obtain rfl := Option.some.inj first
                  obtain ⟨ok, fresh⟩ := (fresh_cons correct).mp fresh
                  exact ⟨ok, keys, after, rest, fresh⟩
            · rintro ⟨ok, keys, after, rfl, fresh⟩
              exact ⟨value :: keys, after, rfl,
                (fresh_cons correct).mpr ⟨ok, fresh⟩⟩
          rw [next]
          split_ifs with ok
          · exact iff_of_false (fun same => by cases same)
              fun found => ok found.1
          · rw [ih, and_iff_right (not_not.mp ok)]

/-- A set that is imported has the keys of the array. -/
theorem putAll_ok (correct : sets.Correct equals) {set : sets.HashSet}
    {items : List (EtchObjectPtr Object)} {result : Option sets.HashSet}
    (done : putAll sets set items = some (.ETCH_OK, result)) :
    ∃ next, ∃ keys : List Object, result = some next ∧
      items = keys.map some ∧ ∀ element, element ∈ sets.elements next ↔
        element ∈ sets.elements set ∨ element ∈ keys := by
  induction items generalizing set with
  | nil =>
      obtain ⟨-, rfl⟩ := Prod.mk.inj (Option.some.inj done)
      refine ⟨set, [], rfl, rfl, fun element => ?_⟩
      rw [or_iff_left List.not_mem_nil]
  | cons item items ih =>
      cases item with
      | none => cases done
      | some value =>
          rw [putAll] at done
          split_ifs at done with ok
          · exact absurd (Prod.mk.inj (Option.some.inj done)).1 ok
          · obtain ⟨next, keys, rfl, rfl, members⟩ := ih done
            have new : ∀ element ∈ sets.elements set,
                equals element value = false := by
              intro element there
              refine Bool.eq_false_iff.mpr fun again => ?_
              exact correct.put_again set value element there again
                (not_not.mp ok)
            refine ⟨next, value :: keys, rfl, rfl, fun element => ?_⟩
            rw [members, (correct.put_other set value new).2, List.mem_cons,
              or_assoc]

theorem putAll_fresh (correct : sets.Correct equals) {set : sets.HashSet}
    {keys : List Object} (fresh : Fresh sets equals set keys) :
    ∃ next, putAll sets set (keys.map some) = some (.ETCH_OK, some next) := by
  induction keys generalizing set with
  | nil => exact ⟨set, rfl⟩
  | cons key keys ih =>
      obtain ⟨ok, fresh⟩ := (fresh_cons correct).mp fresh
      rw [List.map_cons, putAll, if_neg (not_not.mpr ok)]
      exact ih fresh

theorem fresh_new (correct : sets.Correct equals) {keys : List Object} :
    Fresh sets equals sets.new keys ↔ Apart equals keys := by
  refine and_iff_left fun key _ element there => ?_
  rw [correct.elements_new] at there
  cases there

/-- A set of the elements of the one that is exported comes back. -/
def RoundTrips (serializer : CollectionSerializer) (level : EtchLevel)
    (heap : Heap (EtchObjectPtr Object)) (stack later : Nat → Fin 8 → Int)
    (set : sets.HashSet) : Prop :=
  ∃ value next, exportValue serializer sets (some level) heap stack
      (.collection set) = some (.ETCH_OK, some value) ∧
    importValue serializer sets later (some value) =
      some (.ETCH_OK, some next) ∧
    ∀ element, element ∈ sets.elements next ↔ element ∈ sets.elements set

theorem importValue_data (contents : (NativeArray.objects heap mData).contents =
      some elements) :
    putItems sets heap mData stack (heap.objects mData).getLength 0 none
      sets.new = putAll sets sets.new elements := by
  rcases cases_of_contents contents with is | ⟨rfl, empty⟩
  · have length : (heap.objects mData).getLength = elements.length := by
      rw [is]
      rfl
    rw [length, putItems_data is (Nat.zero_add _), List.drop_zero]
  · rw [empty]
    rfl

theorem roundTrips_iff (correct : sets.Correct equals) (level : EtchLevel)
    (heap : Heap (EtchObjectPtr Object)) (stack later : Nat → Fin 8 → Int)
    (set : sets.HashSet) :
    RoundTrips serializer level heap stack later set ↔
      (sets.elements set).length < 2 ^ 31 := by
  have items : ((sets.elements set).map some).length =
      (sets.elements set).length := List.length_map _
  by_cases small : (sets.elements set).length < 2 ^ 31
  · refine iff_of_true ?_ small
    obtain ⟨array, contents, exported⟩ :=
      serializer.exportItems_eq level heap stack (items ▸ small)
    rw [items] at exported
    obtain ⟨next, done⟩ :=
      putAll_fresh correct ((fresh_new correct).mpr (correct.apart set))
    refine ⟨_, next, exported, ?_, fun element => ?_⟩
    · cases array with
      | others => cases contents
      | objects heap mData =>
          unfold importValue
          rw [serializer.importArray_structOf, importValue_data contents, done]
    · obtain ⟨_, keys, same, mapped, members⟩ := putAll_ok correct done
      obtain rfl := Option.some.inj same
      rw [members, correct.elements_new, or_iff_right List.not_mem_nil,
        List.map_injective_iff.mpr (Option.some_injective Object) mapped]
  · refine iff_of_false ?_ small
    rintro ⟨value, next, exported, -⟩
    have nothing :=
      serializer.exportItems_eq_none level heap stack (items ▸ small)
    rw [items] at nothing
    cases nothing.symm.trans exported

/-- Before a `NULL` comes there is a key again. -/
def Importable (equals : Object → Object → Bool)
    (elements : List (EtchObjectPtr Object)) : Prop :=
  ∀ keys after, elements = keys.map some ++ none :: after →
    ¬ Apart equals keys

/-- What is imported is an error or a set of the keys in the array. -/
def ImportFaithful (serializer : CollectionSerializer)
    (sets : HashSets Object) (stack : Nat → Fin 8 → Int)
    (value : StructValue Object) : Prop :=
  Faithful (importValue serializer sets stack (some value)) fun set =>
    ∃ array elements, value.mTable serializer.mField = some array ∧
      array.contents = some elements ∧ ∃ keys : List Object,
        elements = keys.map some ∧
          ∀ element, element ∈ sets.elements set ↔ element ∈ keys

theorem importFaithful_iff (correct : sets.Correct equals)
    (stack : Nat → Fin 8 → Int) (value : StructValue Object) :
    ImportFaithful serializer sets stack value ↔
      serializer.Fits value (Importable equals) := by
  refine serializer.faithful_iff value ?_ ?_
  · intro heap mData elements contents
    rw [importValue_data contents]
    have stops := putAll_eq_none_iff correct sets.new elements
    cases done : putAll sets sets.new elements with
    | none =>
        obtain ⟨keys, after, same, fresh⟩ := stops.mp done
        refine iff_of_false ?_ fun importable => ?_
        · rintro ⟨status, result, imported, -⟩
          cases imported
        · exact importable keys after same ((fresh_new correct).mp fresh)
    | some imported =>
        obtain ⟨status, result⟩ := imported
        refine iff_of_true ⟨status, result, rfl, ?_⟩ ?_
        · rintro rfl
          obtain ⟨next, keys, is, mapped, members⟩ := putAll_ok correct done
          refine ⟨next, is, keys, mapped, fun element => ?_⟩
          rw [members, correct.elements_new, or_iff_right List.not_mem_nil]
        · intro keys after same apart
          cases done.symm.trans
            (stops.mpr ⟨keys, after, same, (fresh_new correct).mpr apart⟩)
  · rintro heap mData contents ⟨status, result, imported, -⟩
    obtain ⟨mDim, rows, is, length, some_⟩ := rows_of_contents contents
    rw [some_, putItems] at imported
    obtain ⟨item, got, imported⟩ := Option.bind_eq_some_iff.mp imported
    obtain rfl := getItem_array is got
    cases imported

end EtchSetSerializer

namespace EtchHashTableSerializer

variable {serializer : CollectionSerializer} {tables : HashTables Object}
  {equals : Object → Object → Bool} {heap : Heap (EtchObjectPtr Object)}
  {mData : Nat} {stack : Nat → Fin 8 → Int}

/-- The keys with the values behind them, none where a key is `NULL` or is
without its value. -/
def pairsOf : List (EtchObjectPtr Object) →
    Option (List (Object × EtchObjectPtr Object))
  | [] => some []
  | some key :: value :: rest => (pairsOf rest).map ((key, value) :: ·)
  | _ => none

theorem pairsOf_keysAndValues (pairs : List (Object × EtchObjectPtr Object)) :
    pairsOf (keysAndValues pairs) = some pairs := by
  induction pairs with
  | nil => rfl
  | cons pair pairs ih =>
      refine (congrArg (Option.map _) ih).trans ?_
      rfl

theorem pairsOf_eq_some_iff {elements : List (EtchObjectPtr Object)}
    {pairs : List (Object × EtchObjectPtr Object)} :
    pairsOf elements = some pairs ↔ elements = keysAndValues pairs := by
  constructor
  · intro is
    induction elements using pairsOf.induct generalizing pairs with
    | case1 =>
        obtain rfl := Option.some.inj is
        rfl
    | case2 key value rest ih =>
        obtain ⟨others, found, rfl⟩ := Option.map_eq_some_iff.mp is
        rw [ih found]
        rfl
    | case3 elements empty pair =>
        rw [pairsOf] at is
        · cases is
        · exact empty
        · exact pair
  · rintro rfl
    exact pairsOf_keysAndValues pairs

theorem drop_cons {Item : Type} {list rest : List Item} {i : Nat} {item : Item}
    (is : list.drop i = item :: rest) :
    list[i]? = some item ∧ list.drop (i + 1) = rest := by
  constructor
  · have first := congrArg (·[0]?) is
    simpa [List.getElem?_drop] using first
  · have others := congrArg (List.drop 1) is
    rwa [List.drop_drop] at others

/-- The pairs put into a table. -/
def putAll (tables : HashTables Object) (table : tables.HashTable)
    (pairs : List (Object × EtchObjectPtr Object)) : tables.HashTable :=
  puts (fun table key value => (tables.put table key value).2) table pairs

theorem putPairs_data (correct : tables.Correct equals)
    {elements : List (EtchObjectPtr Object)}
    (is : heap.objects mData = .etchArrayData elements) (i : Nat)
    (key hashValue : EtchObjectPtr Object) (table : tables.HashTable) :
    putPairs tables heap mData stack i key hashValue table =
      (pairsOf (elements.drop i)).map fun pairs =>
        (.ETCH_OK, some (putAll tables table pairs)) := by
  have length : (heap.objects mData).getLength = elements.length := by
    rw [is]
    rfl
  generalize left : elements.drop i = rest
  induction rest using pairsOf.induct generalizing i key hashValue table with
  | case1 =>
      rw [putPairs, length, if_neg]
      · rfl
      · exact Nat.not_lt.mpr (List.drop_eq_nil_iff.mp left)
  | case2 first second rest ih =>
      obtain ⟨got, left⟩ := drop_cons left
      obtain ⟨got', left⟩ := drop_cons left
      rw [putPairs, length, if_pos (List.getElem?_eq_some_iff.mp got).1,
        getItem_inside is got, Option.bind_eq_bind, Option.bind_some,
        getItem_inside is got', Option.bind_eq_bind, Option.bind_some]
      dsimp only [Option.bind_eq_bind, Option.bind_some]
      rw [if_neg (not_not.mpr (correct.put_ok table first second)),
        ih _ _ _ _ left, pairsOf, Option.map_map]
      rfl
  | case3 rest empty pair =>
      have nothing : pairsOf rest = none := by
        rw [pairsOf]
        · exact empty
        · exact pair
      rw [nothing]
      cases rest with
      | nil => exact absurd rfl empty
      | cons first rest =>
          obtain ⟨got, behind⟩ := drop_cons left
          have inside := (List.getElem?_eq_some_iff.mp got).1
          rw [putPairs, length, if_pos inside, getItem_inside is got]
          cases rest with
          | nil =>
              have last : i + 1 = elements.length :=
                Nat.le_antisymm inside (List.drop_eq_nil_iff.mp behind)
              rw [last]
              dsimp only [Option.bind_eq_bind, Option.bind_some]
              rw [getItem_end is]
              rfl
          | cons second rest =>
              cases first with
              | some first => exact absurd rfl (pair first second rest)
              | none =>
                  obtain ⟨got', _⟩ := drop_cons behind
                  dsimp only [Option.bind_eq_bind, Option.bind_some]
                  rw [getItem_inside is got']
                  rfl

theorem importValue_data (correct : tables.Correct equals)
    {elements : List (EtchObjectPtr Object)}
    (contents : (NativeArray.objects heap mData).contents = some elements) :
    putPairs tables heap mData stack 0 none none tables.new =
      (pairsOf elements).map fun pairs =>
        (.ETCH_OK, some (putAll tables tables.new pairs)) := by
  rcases cases_of_contents contents with is | ⟨rfl, empty⟩
  · exact putPairs_data correct is 0 none none tables.new
  · rw [putPairs, empty]
    rfl

theorem get_putAll (correct : tables.Correct equals)
    (pairs : List (Object × EtchObjectPtr Object)) (key : Object) :
    tables.get (putAll tables tables.new pairs) key =
      last equals pairs key := by
  have put := @get_puts _ _ _ equals
    (fun table key value => (tables.put table key value).2) tables.get
    correct.get_put tables.new pairs key
  rwa [correct.get_new, Option.or_none] at put

theorem length_keysAndValues (pairs : List (Object × EtchObjectPtr Object)) :
    (keysAndValues pairs).length = pairs.length * 2 := by
  induction pairs with
  | nil => rfl
  | cons pair pairs ih =>
      rw [List.length_cons, Nat.succ_mul, ← ih]
      rfl

/-- A table of the entries of the one that is exported comes back. -/
def RoundTrips (serializer : CollectionSerializer) (level : EtchLevel)
    (heap : Heap (EtchObjectPtr Object)) (stack later : Nat → Fin 8 → Int)
    (table : tables.HashTable) : Prop :=
  ∃ value next, exportValue serializer tables (some level) heap stack
      (.collection table) = some (.ETCH_OK, some value) ∧
    importValue serializer tables later (some value) =
      some (.ETCH_OK, some next) ∧
    ∀ key, tables.get next key = tables.get table key

theorem roundTrips_iff (correct : tables.Correct equals) (level : EtchLevel)
    (heap : Heap (EtchObjectPtr Object)) (stack later : Nat → Fin 8 → Int)
    (table : tables.HashTable) :
    RoundTrips serializer level heap stack later table ↔
      (tables.entries table).length * 2 < 2 ^ 31 := by
  have items := length_keysAndValues (tables.entries table)
  have count : ((tables.entries table).length * 2 : Int) =
      ((keysAndValues (tables.entries table)).length : Int) := by
    rw [items]
    rfl
  by_cases small : (tables.entries table).length * 2 < 2 ^ 31
  · refine iff_of_true ?_ small
    obtain ⟨array, contents, exported⟩ :=
      serializer.exportItems_eq level heap stack (items ▸ small)
    rw [← count] at exported
    refine ⟨_, putAll tables tables.new (tables.entries table), exported, ?_,
      fun key => ?_⟩
    · cases array with
      | others => cases contents
      | objects heap mData =>
          unfold importValue
          rw [serializer.importArray_structOf,
            importValue_data correct contents, pairsOf_keysAndValues]
          rfl
    · rw [get_putAll correct]
      exact last_entries correct.equality (correct.apart table)
        (correct.get_iff table) key
  · refine iff_of_false ?_ small
    rintro ⟨value, next, exported, -⟩
    have nothing :=
      serializer.exportItems_eq_none level heap stack (items ▸ small)
    rw [← count] at nothing
    cases nothing.symm.trans exported

/-- What is imported is an error or a table with every value under the key
before it; of equal keys the last one counts. -/
def ImportFaithful (serializer : CollectionSerializer)
    (tables : HashTables Object) (equals : Object → Object → Bool)
    (stack : Nat → Fin 8 → Int) (value : StructValue Object) : Prop :=
  Faithful (importValue serializer tables stack (some value)) fun table =>
    ∃ array elements, value.mTable serializer.mField = some array ∧
      array.contents = some elements ∧ ∃ pairs,
        elements = keysAndValues pairs ∧
          ∀ key, tables.get table key = last equals pairs key

/-- Every key is there, with a value behind it. -/
def Importable (elements : List (EtchObjectPtr Object)) : Prop :=
  ∃ pairs, elements = keysAndValues pairs

theorem importFaithful_iff (correct : tables.Correct equals)
    (stack : Nat → Fin 8 → Int) (value : StructValue Object) :
    ImportFaithful serializer tables equals stack value ↔
      serializer.Fits value Importable := by
  refine serializer.faithful_iff value ?_ ?_
  · intro heap mData elements contents
    rw [importValue_data correct contents]
    cases found : pairsOf elements with
    | none =>
        refine iff_of_false ?_ ?_
        · rintro ⟨status, result, imported, -⟩
          cases imported
        · rintro ⟨pairs, is⟩
          cases found.symm.trans (pairsOf_eq_some_iff.mpr is)
    | some pairs =>
        have is := pairsOf_eq_some_iff.mp found
        exact iff_of_true ⟨_, _, rfl, fun _ => ⟨_, rfl, pairs, is,
          get_putAll correct pairs⟩⟩ ⟨pairs, is⟩
  · rintro heap mData contents ⟨status, result, imported, -⟩
    obtain ⟨mDim, rows, is, length, some_⟩ := rows_of_contents contents
    rw [putPairs, some_, if_pos (Nat.succ_pos _)] at imported
    obtain ⟨key, got, imported⟩ := Option.bind_eq_some_iff.mp imported
    obtain rfl := getItem_array is got
    obtain ⟨item, _, imported⟩ := Option.bind_eq_some_iff.mp imported
    cases imported

end EtchHashTableSerializer

/-! ## All three -/

namespace CollectionSerializer

variable {sets : HashSets Object} {tables : HashTables Object}
  {equals : Object → Object → Bool}

/-- What is exported comes back if it is short enough, and a struct is imported
if its array fits. -/
theorem inverse_iff (setsCorrect : sets.Correct equals)
    (tablesCorrect : tables.Correct equals)
    (serializer : CollectionSerializer) (level : EtchLevel)
    (heap : Heap (EtchObjectPtr Object)) (stack later : Nat → Fin 8 → Int) :
    (∀ list, EtchListSerializer.RoundTrips serializer level heap stack later
        list ↔ list.length < 2 ^ 31) ∧
      (∀ set : sets.HashSet, EtchSetSerializer.RoundTrips serializer level heap
        stack later set ↔ (sets.elements set).length < 2 ^ 31) ∧
      (∀ table : tables.HashTable, EtchHashTableSerializer.RoundTrips
        serializer level heap stack later table ↔
          (tables.entries table).length * 2 < 2 ^ 31) ∧
      ∀ value : StructValue Object,
        (EtchListSerializer.ImportFaithful serializer later value ↔
          serializer.Fits value fun _ => True) ∧
        (EtchSetSerializer.ImportFaithful serializer sets later value ↔
          serializer.Fits value (EtchSetSerializer.Importable equals)) ∧
        (EtchHashTableSerializer.ImportFaithful serializer tables equals later
            value ↔
          serializer.Fits value EtchHashTableSerializer.Importable) :=
  ⟨EtchListSerializer.roundTrips_iff level heap stack later,
    EtchSetSerializer.roundTrips_iff setsCorrect level heap stack later,
    EtchHashTableSerializer.roundTrips_iff tablesCorrect level heap stack
      later,
    fun value => ⟨EtchListSerializer.importFaithful_iff later value,
      EtchSetSerializer.importFaithful_iff setsCorrect later value,
      EtchHashTableSerializer.importFaithful_iff tablesCorrect later value⟩⟩

section Containers

variable (Object : Type) [DecidableEq Object]

theorem isEquality_eq :
    IsEquality fun key other : Object => decide (key = other) where
  refl _ := decide_eq_true rfl
  symm same := decide_eq_true (of_decide_eq_true same).symm
  trans same same' :=
    decide_eq_true ((of_decide_eq_true same).trans (of_decide_eq_true same'))

variable {Object} in
theorem apart_iff_nodup {keys : List Object} :
    Apart (fun key other => decide (key = other)) keys ↔ keys.Nodup :=
  ⟨fun apart => apart.imp of_decide_eq_false,
    fun nodup => nodup.imp fun other => decide_eq_false other⟩

/-- Sets in the order in which their elements have been put. -/
def listSets : HashSets Object where
  HashSet := { elements : List Object // elements.Nodup }
  new := ⟨[], .nil⟩
  put set value :=
    if there : value ∈ set.1 then (.ETCH_ERROR, set)
    else (.ETCH_OK, ⟨value :: set.1, List.nodup_cons.mpr ⟨there, set.2⟩⟩)
  elements set := set.1

theorem listSets_correct :
    (listSets Object).Correct fun key other => decide (key = other) where
  equality := isEquality_eq Object
  apart set := apart_iff_nodup.mpr set.2
  elements_new := rfl
  put_other set value others := by
    have absent : value ∉ set.1 := fun there =>
      of_decide_eq_false (others value there) rfl
    have put : (listSets Object).put set value =
        (.ETCH_OK, ⟨value :: set.1, List.nodup_cons.mpr ⟨absent, set.2⟩⟩) :=
      dif_neg absent
    rw [put]
    exact ⟨rfl, fun element => List.mem_cons.trans or_comm⟩
  put_again set value element there same := by
    obtain rfl := of_decide_eq_true same
    have put : (listSets Object).put set element = (.ETCH_ERROR, set) :=
      dif_pos there
    rw [put]
    rintro ⟨⟩

/-- Tables with the entry in front that has been put last. -/
def listTables : HashTables Object where
  HashTable :=
    { entries : List (Object × EtchObjectPtr Object) //
      (entries.map Prod.fst).Nodup }
  new := ⟨[], .nil⟩
  put table key value :=
    (.ETCH_OK, ⟨(key, value) :: table.1.filter fun entry => entry.1 ≠ key, by
      refine List.nodup_cons.mpr ⟨fun there => ?_,
        table.2.sublist (List.filter_sublist.map _)⟩
      obtain ⟨entry, member, same⟩ := List.mem_map.mp there
      exact of_decide_eq_true (List.mem_filter.mp member).2 same⟩)
  get table key := last (fun key other => decide (key = other)) table.1 key
  entries table := table.1

variable {Object} in
theorem last_filter {entries : List (Object × EtchObjectPtr Object)}
    {key other : Object} (apart : key ≠ other) :
    last (fun key other => decide (key = other))
        (entries.filter fun entry => entry.1 ≠ key) other =
      last (fun key other => decide (key = other)) entries other := by
  induction entries with
  | nil => rfl
  | cons entry entries ih =>
      by_cases same : entry.1 = key
      · have differs : ¬ decide (entry.1 = other) = true :=
          fun equal => apart (same.symm.trans (of_decide_eq_true equal))
        rw [List.filter_cons, if_neg (by simp [same]), ih, last,
          if_neg differs, Option.or_none]
      · rw [List.filter_cons, if_pos (decide_eq_true same), last, last, ih]

theorem listTables_correct :
    (listTables Object).Correct fun key other => decide (key = other) where
  equality := isEquality_eq Object
  apart table := apart_iff_nodup.mpr table.2
  get_new _ := rfl
  put_ok _ _ _ := rfl
  get_put table key value other := by
    change last _ ((key, value) :: table.1.filter _) other = _
    rw [last]
    by_cases same : key = other
    · subst same
      have absent : ∀ entry ∈ table.1.filter (fun entry => entry.1 ≠ key),
          decide (entry.1 = key) = false := fun entry member =>
        decide_eq_false (of_decide_eq_true (List.mem_filter.mp member).2)
      rw [last_eq_none absent, if_pos (decide_eq_true rfl), if_pos]
      · rfl
      · exact decide_eq_true rfl
    · have differs : ¬ decide (key = other) = true :=
        fun equal => same (of_decide_eq_true equal)
      rw [last_filter same, if_neg differs, if_neg differs, Option.or_none]
      rfl
  get_iff table key value := by
    refine ⟨exists_of_last, ?_⟩
    rintro ⟨entry, member, same, rfl⟩
    exact last_eq_some (isEquality_eq Object)
      (apart_iff_nodup.mpr table.2) member same

end Containers

/-- A serializer of hash tables. -/
def tableSerializer : CollectionSerializer where
  mType := ⟨17, .ofCString [0x6D]⟩
  mField := ⟨18, .ofCString [0x6B]⟩

/-- A table of two entries comes back, one of them with `NULL`. -/
theorem inverse_iff_two :
    @EtchHashTableSerializer.RoundTrips _ (listTables Nat) tableSerializer
      .LEVEL_FULL ⟨fun _ => .etchArrayData [], 0⟩ (fun _ _ => 0) (fun _ _ => 0)
      ⟨[(1, some 7), (2, none)], by decide⟩ := by
  refine ((inverse_iff (listSets_correct Nat) (listTables_correct Nat)
    tableSerializer .LEVEL_FULL ⟨fun _ => .etchArrayData [], 0⟩ (fun _ _ => 0)
    (fun _ _ => 0)).2.2.1 _).mpr ?_
  decide

/-- One key is sent without a value. -/
theorem lone_key_not_faithful :
    ¬ ∀ value : StructValue Nat, EtchHashTableSerializer.ImportFaithful
      tableSerializer (listTables Nat) (fun key other => decide (key = other))
      (fun _ _ => 0) value := by
  intro faithful
  have fits := (EtchHashTableSerializer.importFaithful_iff
    (listTables_correct Nat) (fun _ _ => 0) _).mp (faithful
      (tableSerializer.structOf
        (.objects ⟨fun _ => .etchArrayData [some 1], 1⟩ 0)))
  obtain ⟨elements, contents, pairs, is⟩ :=
    fits rfl _ (tableSerializer.structOf_field _)
  obtain rfl := Option.some.inj contents
  cases pairs with
  | nil => cases is
  | cons pair pairs => cases (List.cons.inj is).2

end CollectionSerializer

end Etch.Cpp
