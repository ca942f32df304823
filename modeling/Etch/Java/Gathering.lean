import Etch.Java.StandardFactory

/-!
# What is lost where sets and maps are built

A set or a map that is built of keys which `equals` tells apart has all of
them, in order.  Any other has less in it, which its weight shows: the number
of objects in it, however deep.
-/

namespace Etch.Java

/-! ## Weights -/

mutual

/-- The number of objects in a value, with the value itself. -/
def Value.weight : Value → Nat
  | .array _ elements => weightAll elements + 1
  | .custom _ state => weightAll state + 1
  | _ => 1

def weightAll : List Value → Nat
  | [] => 0
  | value :: values => value.weight + weightAll values

end

theorem Value.one_le_weight (value : Value) : 1 ≤ value.weight := by
  cases value <;> simp [weight]

theorem weightAll_append (first second : List Value) :
    weightAll (first ++ second) = weightAll first + weightAll second := by
  induction first with
  | nil => exact (Nat.zero_add _).symm
  | cons value values ih =>
      rw [List.cons_append, weightAll, weightAll, ih, Nat.add_assoc]

theorem weightAll_singleton (value : Value) :
    weightAll [value] = value.weight := rfl

/-! ## Keys -/

/-- No key is equal to one before it. -/
def Apart (equals : Equality) (keys : List Value) : Prop :=
  keys.Pairwise fun old new => equals new old = false

def keysOf : List Value → List Value
  | key :: _ :: keysAndValues => key :: keysOf keysAndValues
  | _ => []

def valuesOf : List Value → List Value
  | _ :: value :: keysAndValues => value :: valuesOf keysAndValues
  | _ => []

theorem unpair_append (first second : List (Value × Value)) :
    unpair (first ++ second) = unpair first ++ unpair second :=
  List.flatMap_append

theorem keysOf_unpair (entries : List (Value × Value)) :
    keysOf (unpair entries) = entries.map Prod.fst := by
  induction entries with
  | nil => rfl
  | cons entry entries ih =>
      change entry.1 :: keysOf (unpair entries) = _
      rw [ih, List.map_cons]

theorem valuesOf_unpair (entries : List (Value × Value)) :
    valuesOf (unpair entries) = entries.map Prod.snd := by
  induction entries with
  | nil => rfl
  | cons entry entries ih =>
      change entry.2 :: valuesOf (unpair entries) = _
      rw [ih, List.map_cons]

section Equals

variable {equals : Equality}

/-- A key that is in the set already is lost. -/
theorem HashSet.add_cases (equals : Equality) (set : List Value) (key : Value) :
    ((∀ other ∈ set, equals key other = false) ∧
      HashSet.add equals set key = set ++ [key]) ∨
    HashSet.add equals set key = set := by
  unfold HashSet.add
  by_cases has : (set.any fun other => equals key other) = true
  · exact Or.inr (if_pos has)
  · refine Or.inl ⟨fun other mem => ?_, if_neg has⟩
    rw [List.any_eq_true, not_exists] at has
    exact Bool.eq_false_of_not_eq_true fun same => has other ⟨mem, same⟩

/-- Keys that are apart, and apart from those in a set, are all added. -/
theorem foldl_add_of_apart (keys set : List Value)
    (fresh : ∀ key ∈ keys, ∀ other ∈ set, equals key other = false)
    (apart : Apart equals keys) :
    keys.foldl (HashSet.add equals) set = set ++ keys := by
  induction keys generalizing set with
  | nil => exact (List.append_nil set).symm
  | cons key keys ih =>
      obtain ⟨first, rest⟩ := List.pairwise_cons.mp apart
      have added : HashSet.add equals set key = set ++ [key] := by
        refine if_neg fun has => ?_
        obtain ⟨other, mem, same⟩ := List.any_eq_true.mp has
        rw [fresh key List.mem_cons_self other mem] at same
        exact nomatch same
      rw [List.foldl_cons, added, ih, List.append_assoc]
      · rfl
      · intro key' mem' other mem
        rcases List.mem_append.mp mem with mem | mem
        · exact fresh key' (List.mem_cons_of_mem _ mem') other mem
        · rw [List.mem_singleton.mp mem]
          exact first key' mem'
      · exact rest

/-- Nothing is lost only where the keys are apart. -/
theorem weight_foldl_add (keys set : List Value) :
    weightAll (keys.foldl (HashSet.add equals) set) ≤
      weightAll set + weightAll keys ∧
    (weightAll (keys.foldl (HashSet.add equals) set) =
        weightAll set + weightAll keys →
      (∀ key ∈ keys, ∀ other ∈ set, equals key other = false) ∧
        Apart equals keys) := by
  induction keys generalizing set with
  | nil => exact ⟨Nat.le_refl _, fun _ => ⟨nofun, .nil⟩⟩
  | cons key keys ih =>
      rw [List.foldl_cons, weightAll]
      rcases HashSet.add_cases equals set key with
        ⟨fresh, added⟩ | same
      · rw [added]
        have tail := ih (set ++ [key])
        rw [weightAll_append, weightAll_singleton] at tail
        refine ⟨by omega, fun whole => ?_⟩
        obtain ⟨others, apart⟩ := tail.2 (by omega)
        refine ⟨fun key' mem' other mem => ?_, List.pairwise_cons.mpr
          ⟨fun key' mem' => others key' mem' key (by simp), apart⟩⟩
        rcases List.mem_cons.mp mem' with rfl | mem'
        · exact fresh other mem
        · exact others key' mem' other (List.mem_append_left _ mem)
      · rw [same]
        have tail := ih set
        have one := key.one_le_weight
        exact ⟨by omega, fun whole => by omega⟩

/-! ## Maps -/

/-- A key that is in the map already is lost, with the value it had. -/
theorem HashMap.put_cases (equals : Equality)
    (map : List (Value × Value)) (key value : Value) :
    ((∀ entry ∈ map, equals key entry.1 = false) ∧
      HashMap.put equals map key value = map ++ [(key, value)]) ∨
    weightAll (unpair (HashMap.put equals map key value)) <
      weightAll (unpair map) + (key.weight + value.weight) := by
  induction map with
  | nil => exact Or.inl ⟨nofun, rfl⟩
  | cons entry entries ih =>
      obtain ⟨other, old⟩ := entry
      rw [HashMap.put]
      cases same : equals key other with
      | true =>
          have one := key.one_le_weight
          have one' := old.one_le_weight
          change _ ∨ other.weight + (value.weight +
            weightAll (unpair entries)) < other.weight + (old.weight +
              weightAll (unpair entries)) + (key.weight + value.weight)
          exact Or.inr (by omega)
      | false =>
          rcases ih with ⟨fresh, added⟩ | less
          · refine Or.inl ⟨fun entry mem => ?_, ?_⟩
            · rcases List.mem_cons.mp mem with rfl | mem
              · exact same
              · exact fresh entry mem
            · rw [if_neg Bool.false_ne_true, added, List.cons_append]
          · rw [if_neg Bool.false_ne_true]
            change _ ∨ other.weight + (old.weight + weightAll (unpair
              (HashMap.put equals entries key value))) < other.weight +
                (old.weight + weightAll (unpair entries)) +
                  (key.weight + value.weight)
            exact Or.inr (by omega)

theorem put_of_fresh {map : List (Value × Value)} {key : Value}
    (fresh : ∀ entry ∈ map, equals key entry.1 = false) (value : Value) :
    HashMap.put equals map key value = map ++ [(key, value)] := by
  induction map with
  | nil => rfl
  | cons entry entries ih =>
      obtain ⟨other, old⟩ := entry
      have differs : equals key other = false :=
        fresh _ List.mem_cons_self
      rw [HashMap.put, differs, if_neg Bool.false_ne_true,
        ih fun entry mem => fresh entry (List.mem_cons_of_mem _ mem),
        List.cons_append]

/-- A cast that gives back what it takes. -/
def Casts (cast : Value → Except Thrown Value) : Prop :=
  ∀ value value', cast value = .ok value' → value' = value

variable {castKey castValue : Value → Except Thrown Value}

/-- Keys that are apart, and apart from those in a map, are all put. -/
theorem putAll_of_apart (entries map : List (Value × Value))
    (keys : ∀ entry ∈ entries, castKey entry.1 = .ok entry.1)
    (values : ∀ entry ∈ entries, castValue entry.2 = .ok entry.2)
    (fresh : ∀ entry ∈ entries, ∀ other ∈ map,
      equals entry.1 other.1 = false)
    (apart : Apart equals (entries.map Prod.fst)) :
    putAll equals castKey castValue (unpair entries) map =
      .ok (map ++ entries) := by
  induction entries generalizing map with
  | nil =>
      rw [List.append_nil]
      rfl
  | cons entry entries ih =>
      obtain ⟨key, value⟩ := entry
      obtain ⟨first, rest⟩ := List.pairwise_cons.mp apart
      change putAll equals castKey castValue
        (key :: value :: unpair entries) map = _
      have key_ok : castKey key = .ok key := keys _ List.mem_cons_self
      have value_ok : castValue value = .ok value :=
        values _ List.mem_cons_self
      rw [putAll, key_ok, value_ok]
      change putAll equals castKey castValue (unpair entries)
        (HashMap.put equals map key value) = _
      rw [put_of_fresh (fresh _ List.mem_cons_self), ih,
        List.append_assoc]
      · rfl
      · exact fun entry mem => keys entry (List.mem_cons_of_mem _ mem)
      · exact fun entry mem => values entry (List.mem_cons_of_mem _ mem)
      · intro entry mem other mem'
        rcases List.mem_append.mp mem' with mem' | mem'
        · exact fresh entry (List.mem_cons_of_mem _ mem) other mem'
        · rw [List.mem_singleton.mp mem']
          exact first _ (List.mem_map_of_mem mem)
      · exact rest

/-- What has been put are entries. -/
theorem putAll_entries {keysAndValues : List Value}
    {map after : List (Value × Value)}
    (done : putAll equals castKey castValue keysAndValues map = .ok after) :
    ∃ entries, keysAndValues = unpair entries := by
  match keysAndValues with
  | [] => exact ⟨[], rfl⟩
  | [key] =>
      rw [putAll] at done
      cases keyed : castKey key with
      | ok key' =>
          rw [keyed] at done
          exact nomatch done
      | error thrown =>
          rw [keyed] at done
          exact nomatch done
  | key :: value :: rest =>
      rw [putAll] at done
      obtain ⟨_, _, done⟩ := Etch.Library.Fallible.bind_eq_ok_iff.mp done
      obtain ⟨_, _, done⟩ := Etch.Library.Fallible.bind_eq_ok_iff.mp done
      obtain ⟨entries, rfl⟩ := putAll_entries done
      exact ⟨(key, value) :: entries, rfl⟩

/-- Nothing is lost only where the keys are apart; all casts go through. -/
theorem weight_putAll (castsKey : Casts castKey)
    (castsValue : Casts castValue) (entries map : List (Value × Value))
    {after : List (Value × Value)}
    (done : putAll equals castKey castValue (unpair entries) map =
      .ok after) :
    (∀ entry ∈ entries, castKey entry.1 = .ok entry.1 ∧
      castValue entry.2 = .ok entry.2) ∧
    weightAll (unpair after) ≤
      weightAll (unpair map) + weightAll (unpair entries) ∧
    (weightAll (unpair after) =
        weightAll (unpair map) + weightAll (unpair entries) →
      (∀ entry ∈ entries, ∀ other ∈ map,
        equals entry.1 other.1 = false) ∧
          Apart equals (entries.map Prod.fst)) := by
  induction entries generalizing map with
  | nil =>
      obtain rfl := Except.ok.inj done
      exact ⟨nofun, Nat.le_refl _, fun _ => ⟨nofun, .nil⟩⟩
  | cons entry entries ih =>
      obtain ⟨key, value⟩ := entry
      change putAll equals castKey castValue
        (key :: value :: unpair entries) map = _ at done
      rw [putAll] at done
      cases keyed : castKey key with
      | error thrown =>
          rw [keyed] at done
          exact nomatch done
      | ok key' =>
          obtain rfl := castsKey _ _ keyed
          cases valued : castValue value with
          | error thrown =>
              rw [keyed, valued] at done
              exact nomatch done
          | ok value' =>
              obtain rfl := castsValue _ _ valued
              rw [keyed, valued] at done
              change putAll equals castKey castValue (unpair entries)
                (HashMap.put equals map key' value') = _ at done
              have tail := ih _ done
              have casts : ∀ entry ∈ (key', value') :: entries,
                  castKey entry.1 = .ok entry.1 ∧
                    castValue entry.2 = .ok entry.2 := by
                intro entry mem
                rcases List.mem_cons.mp mem with rfl | mem
                · exact ⟨keyed, valued⟩
                · exact tail.1 entry mem
              change _ ∧ _ ≤ _ + (key'.weight + (value'.weight +
                weightAll (unpair entries))) ∧ (_ = _ + (key'.weight +
                  (value'.weight + weightAll (unpair entries))) → _)
              rcases HashMap.put_cases equals map key' value'
                with ⟨fresh, added⟩ | less
              · rw [added, unpair_append, weightAll_append] at tail
                have one : weightAll (unpair [(key', value')]) =
                    key'.weight + value'.weight := rfl
                refine ⟨casts, by omega, fun whole => ?_⟩
                obtain ⟨others, apart⟩ := tail.2.2 (by omega)
                refine ⟨fun entry mem other mem' => ?_,
                  List.pairwise_cons.mpr ⟨fun next mem => ?_, apart⟩⟩
                · rcases List.mem_cons.mp mem with rfl | mem
                  · exact fresh other mem'
                  · exact others entry mem other
                      (List.mem_append_left _ mem')
                · obtain ⟨entry, mem', rfl⟩ := List.mem_map.mp mem
                  exact others entry mem' _
                    (List.mem_append_right _ List.mem_cons_self)
              · exact ⟨casts, by omega, fun whole => by omega⟩

end Equals

end Etch.Java
