import Mathlib.Data.List.Pairwise

/-!
# Pairs of keys and values

Pairs are put into a map one after the other.  Keys are compared by a relation
of their own, so a map is known by what it gives for each key: the value of the
last pair whose key is equal, or else what it gave before.
-/

namespace Etch.Library.Keyed

variable {Key Value Map : Type*} {equals : Key → Key → Bool}

/-- Equal keys are the same key to a map. -/
structure IsEquality (equals : Key → Key → Bool) : Prop where
  refl : ∀ key, equals key key = true
  symm : ∀ {key other}, equals key other = true → equals other key = true
  trans : ∀ {key other third}, equals key other = true →
    equals other third = true → equals key third = true

/-- No two of the keys are equal. -/
def Apart (equals : Key → Key → Bool) (keys : List Key) : Prop :=
  keys.Pairwise fun key other => equals key other = false

/-- The value of the last pair whose key is equal to a key. -/
def last (equals : Key → Key → Bool) :
    List (Key × Value) → Key → Option Value
  | [], _ => none
  | pair :: pairs, key =>
      (last equals pairs key).or
        (if equals pair.1 key then some pair.2 else none)

/-- The pairs are put one after the other. -/
def puts (put : Map → Key → Value → Map) (map : Map)
    (pairs : List (Key × Value)) : Map :=
  pairs.foldl (fun map pair => put map pair.1 pair.2) map

theorem get_puts {put : Map → Key → Value → Map}
    {get : Map → Key → Option Value}
    (get_put : ∀ map key value other, get (put map key value) other =
      if equals key other then some value else get map other)
    (map : Map) (pairs : List (Key × Value)) (key : Key) :
    get (puts put map pairs) key =
      (last equals pairs key).or (get map key) := by
  induction pairs generalizing map with
  | nil => rfl
  | cons pair pairs ih =>
      refine (ih _).trans ?_
      rw [get_put, last, Option.or_assoc]
      split <;> rfl

theorem last_eq_none {pairs : List (Key × Value)} {key : Key}
    (absent : ∀ pair ∈ pairs, equals pair.1 key = false) :
    last equals pairs key = none := by
  induction pairs with
  | nil => rfl
  | cons first pairs ih =>
      rw [List.forall_mem_cons] at absent
      rw [last, ih absent.2, absent.1]
      rfl

/-- Of pairs whose keys are apart at most one has a key. -/
theorem last_eq_some (equality : IsEquality equals)
    {pairs : List (Key × Value)} (apart : Apart equals (pairs.map Prod.fst))
    {pair : Key × Value} (member : pair ∈ pairs) {key : Key}
    (same : equals pair.1 key = true) :
    last equals pairs key = some pair.2 := by
  induction pairs with
  | nil => cases member
  | cons first pairs ih =>
      obtain ⟨others, apart⟩ := List.pairwise_cons.mp apart
      rw [last]
      rcases List.mem_cons.mp member with rfl | member
      · have absent : ∀ other ∈ pairs, equals other.1 key = false := by
          intro other member
          refine Bool.eq_false_iff.mpr fun same' => ?_
          have equal := equality.trans same (equality.symm same')
          rw [others other.1 (List.mem_map_of_mem member)] at equal
          cases equal
        rw [last_eq_none absent, if_pos same]
        rfl
      · rw [ih apart member]
        rfl

theorem exists_of_last {pairs : List (Key × Value)} {key : Key} {value : Value}
    (found : last equals pairs key = some value) :
    ∃ pair ∈ pairs, equals pair.1 key = true ∧ pair.2 = value := by
  induction pairs with
  | nil => cases found
  | cons first pairs ih =>
      rw [last, Option.or_eq_some_iff] at found
      rcases found with found | ⟨-, found⟩
      · obtain ⟨pair, member, same⟩ := ih found
        exact ⟨pair, List.mem_cons_of_mem _ member, same⟩
      · by_cases same : equals first.1 key = true
        · rw [if_pos same] at found
          exact ⟨first, List.mem_cons_self, same, Option.some.inj found⟩
        · rw [if_neg same] at found
          cases found

/-- The entries of a map give what it gives. -/
theorem last_entries (equality : IsEquality equals)
    {pairs : List (Key × Value)} (apart : Apart equals (pairs.map Prod.fst))
    {get : Key → Option Value}
    (get_iff : ∀ key value, get key = some value ↔
      ∃ pair ∈ pairs, equals pair.1 key = true ∧ pair.2 = value)
    (key : Key) : last equals pairs key = get key := by
  refine Option.ext fun value => ?_
  rw [get_iff]
  refine ⟨exists_of_last, ?_⟩
  rintro ⟨pair, member, same, rfl⟩
  exact last_eq_some equality apart member same

end Etch.Library.Keyed
