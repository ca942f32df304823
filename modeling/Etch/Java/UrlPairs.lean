import Etch.Java.UrlPieces

/-!
# Terms made of names and values

The terms of a string are made by adding its names and values one after the
other.  Adding the values of each name again, in the order in which they are
listed, makes the same terms, in whatever order the names come.
-/

namespace Etch.Java

namespace Terms

/-! ## One name -/

/-- What a name has once a value has been added. -/
def added : Option Term → JavaString → Term
  | none, value => .value value
  | some (.list values), value =>
      if values.contains value then .list values
      else .list (values ++ [value])
  | some (.value old), value => .list [old, value]

/-- What a name has once some values have been added. -/
def built (term : Option Term) (values : List JavaString) : Option Term :=
  values.foldl (fun term value => some (added term value)) term

theorem built_append (term : Option Term) (values : List JavaString)
    (last : JavaString) :
    built term (values ++ [last]) =
      some (added (built term values) last) := by
  rw [built, List.foldl_append]
  rfl

theorem lookup_addValue (terms : Terms) (name value other : JavaString) :
    (terms.addValue name (some value)).ensureTerms.lookup other =
      if other = name then some (added (terms.ensureTerms.lookup name) value)
      else terms.ensureTerms.lookup other := by
  have inserted (term : Term) :
      (Terms.ensureTerms (some (terms.ensureTerms.insert name term))).lookup
          other =
        if other = name then some term
        else terms.ensureTerms.lookup other := by
    split_ifs with same
    · subst same
      exact Finmap.lookup_insert _
    · exact Finmap.lookup_insert_of_ne _ same
  unfold addValue
  dsimp only
  cases found : terms.ensureTerms.lookup name with
  | none => exact inserted _
  | some term =>
      cases term with
      | value old => exact inserted _
      | list values =>
          dsimp only [added]
          split_ifs with there same
          · subst same
            exact found
          · rfl
          · rw [inserted, if_pos ‹_›]
          · rw [inserted, if_neg ‹_›]

theorem mem_elements_added (term : Option Term) (value other : JavaString) :
    other ∈ elements (some (added term value)) ↔
      other ∈ elements term ∨ other = value := by
  cases term with
  | none => simp [added, elements]
  | some term =>
      cases term with
      | value old => simp [added, elements]
      | list values =>
          dsimp only [added]
          split_ifs with there
          · have mem : value ∈ values := by simpa using there
            refine ⟨.inl, ?_⟩
            rintro (old | rfl)
            · exact old
            · exact mem
          · simp [elements]

theorem mem_elements_built (values : List JavaString) (value : JavaString) :
    value ∈ elements (built none values) ↔ value ∈ values := by
  induction values using List.reverseRecOn with
  | nil => exact Iff.rfl
  | append_singleton values last ih =>
      rw [built_append, mem_elements_added, List.mem_append,
        List.mem_singleton]
      exact or_congr_left ih

/-- Adding the values that a name lists makes what it has. -/
theorem built_elements (values : List JavaString) :
    built none (elements (built none values)) = built none values := by
  induction values using List.reverseRecOn with
  | nil => rfl
  | append_singleton values last ih =>
      rw [built_append]
      generalize built none values = term at ih ⊢
      cases term with
      | none => rfl
      | some term =>
          cases term with
          | value old => rfl
          | list values =>
              dsimp only [added]
              split_ifs with there
              · exact ih
              · change built none (values ++ [last]) = _
                change built none values = _ at ih
                rw [built_append, ih, added, if_neg there]

end Terms

namespace Url

/-! ## Names and values -/

/-- The values of a name, in their order. -/
def valuesOf (pairs : List (JavaString × JavaString)) (name : JavaString) :
    List JavaString :=
  (pairs.filter (·.1 = name)).map (·.2)

theorem mem_valuesOf {pairs : List (JavaString × JavaString)}
    {name value : JavaString} :
    value ∈ valuesOf pairs name ↔ (name, value) ∈ pairs := by
  simp [valuesOf]

theorem lookup_addPairs (terms : Terms)
    (pairs : List (JavaString × JavaString)) (name : JavaString) :
    (addPairs terms pairs).ensureTerms.lookup name =
      Terms.built (terms.ensureTerms.lookup name) (valuesOf pairs name) := by
  induction pairs generalizing terms with
  | nil => rfl
  | cons pair pairs ih =>
      change (addPairs (terms.addValue pair.1 (some pair.2)) pairs
        ).ensureTerms.lookup name = _
      rw [ih, Terms.lookup_addValue, valuesOf, valuesOf, List.filter_cons]
      by_cases same : name = pair.1
      · rw [if_pos same, if_pos (by simpa using same.symm), same]
        rfl
      · rw [if_neg same, if_neg (by simpa using Ne.symm same)]

theorem values_addPairs (pairs : List (JavaString × JavaString))
    (name value : JavaString) :
    value ∈ (addPairs none pairs).values name ↔ (name, value) ∈ pairs := by
  rw [Terms.values_eq, lookup_addPairs, ← mem_valuesOf]
  exact Terms.mem_elements_built _ value

theorem addValue_ne_none (terms : Terms) (name value : JavaString) :
    terms.addValue name (some value) ≠ none := by
  unfold Terms.addValue
  dsimp only
  split
  · exact nofun
  · split_ifs
    · exact nofun
    · exact nofun
  · exact nofun

theorem addPairs_ne_none {terms : Terms} (some' : terms ≠ none)
    (pairs : List (JavaString × JavaString)) :
    addPairs terms pairs ≠ none := by
  induction pairs generalizing terms with
  | nil => exact some'
  | cons pair pairs ih => exact ih (addValue_ne_none terms pair.1 pair.2)

theorem addPairs_eq_none_iff {pairs : List (JavaString × JavaString)} :
    addPairs none pairs = none ↔ pairs = [] := by
  cases pairs with
  | nil => exact iff_of_true rfl rfl
  | cons pair pairs =>
      refine iff_of_false ?_ (List.cons_ne_nil _ _)
      exact addPairs_ne_none (addValue_ne_none none pair.1 pair.2) pairs

/-- Terms are alike if both are null or neither, and every name has the same.
-/
theorem terms_ext {left right : Terms} (null : left = none ↔ right = none)
    (lookup : ∀ name, left.ensureTerms.lookup name =
      right.ensureTerms.lookup name) : left = right := by
  cases left with
  | none => exact (null.mp rfl).symm
  | some left =>
      cases right with
      | none => exact null.mpr rfl
      | some right => exact congrArg some (Finmap.ext_lookup lookup)

namespace KeyOrder

variable {pairs : List (JavaString × JavaString)}

/-- The names and values that are printed are those that were added. -/
theorem mem_pairs {terms : Terms} (order : KeyOrder terms)
    (made : terms = addPairs none pairs) (pair : JavaString × JavaString) :
    pair ∈ order.pairs ↔ pair ∈ pairs := by
  obtain ⟨name, value⟩ := pair
  rw [← values_addPairs pairs, ← made, KeyOrder.pairs]
  simp only [List.mem_flatMap, List.mem_map, Prod.mk.injEq]
  constructor
  · rintro ⟨_, -, _, mem, rfl, rfl⟩
    exact mem
  · intro mem
    refine ⟨name, (order.mem_iff name).mpr ?_, value, mem, rfl, rfl⟩
    rw [Terms.values_eq] at mem
    cases found : terms.ensureTerms.lookup name with
    | none =>
        rw [found] at mem
        exact absurd mem List.not_mem_nil
    | some term => rfl

theorem valuesOf_flatMap {names : List JavaString} (nodup : names.Nodup)
    (values : JavaString → List JavaString) (name : JavaString) :
    valuesOf (names.flatMap fun n => (values n).map fun v => (n, v)) name =
      if name ∈ names then values name else [] := by
  have one (n : JavaString) :
      valuesOf ((values n).map fun v => (n, v)) name =
        if name = n then values name else [] := by
    unfold valuesOf
    rw [List.filter_map, List.map_map]
    split_ifs with same
    · subst same
      simp [Function.comp_def]
    · simp [Function.comp_def, Ne.symm same]
  induction names with
  | nil => rfl
  | cons n names ih =>
      obtain ⟨new, nodup⟩ := List.nodup_cons.mp nodup
      have both : valuesOf ((n :: names).flatMap fun n =>
            (values n).map fun v => (n, v)) name =
          valuesOf ((values n).map fun v => (n, v)) name ++
            valuesOf (names.flatMap fun n =>
              (values n).map fun v => (n, v)) name := by
        rw [List.flatMap_cons, valuesOf, List.filter_append,
          List.map_append]
        rfl
      rw [both, one, ih nodup]
      by_cases same : name = n
      · subst same
        rw [if_pos rfl, if_neg new, if_pos List.mem_cons_self,
          List.append_nil]
      · rw [if_neg same, List.nil_append]
        exact if_congr (by simp [same]) rfl rfl

/-- Whatever the order of the names, adding what is printed makes the terms. -/
theorem addPairs_pairs {terms : Terms} (order : KeyOrder terms)
    (made : terms = addPairs none pairs) :
    addPairs none order.pairs = terms := by
  refine terms_ext ?_ fun name => ?_
  · have null : terms = none ↔ pairs = [] := by
      rw [made]
      exact addPairs_eq_none_iff
    rw [addPairs_eq_none_iff, null, List.eq_nil_iff_forall_not_mem,
      List.eq_nil_iff_forall_not_mem]
    exact forall_congr' fun pair => not_congr (order.mem_pairs made pair)
  · have printed : valuesOf order.pairs name = terms.values name := by
      rw [KeyOrder.pairs, valuesOf_flatMap order.nodup]
      refine ite_eq_left_iff.mpr fun absent => ?_
      rw [order.mem_iff, Option.not_isSome_iff_eq_none] at absent
      rw [Terms.values_eq, absent]
      rfl
    have looked : terms.ensureTerms.lookup name =
        Terms.built none (valuesOf pairs name) := by
      rw [made]
      exact lookup_addPairs none pairs name
    rw [lookup_addPairs, printed, Terms.values_eq, looked]
    exact Terms.built_elements _

end KeyOrder

end Url

end Etch.Java
