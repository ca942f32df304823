import Etch.Java.IdName
import Mathlib.Data.Finmap

/-!
# The query terms of a Java `URL`

A name has no values, one value that stands for itself, or a list of them.
What the terms are for is a set of values for each name; they are this as long
as no value is added to a name that has just this one, standing for itself.
-/

namespace Etch.Java

/-- The values of a name, as the map has them. -/
inductive Term where
  | value (value : JavaString)
  | list (values : List JavaString)
deriving DecidableEq

/-- `Map<String, Object>` -/
abbrev TermMap : Type :=
  Finmap fun _ : JavaString => Term

/-- The field `terms`, which may be null. -/
abbrev Terms : Type :=
  Option TermMap

namespace Terms

/-- `checkName( name )` -/
def checkName : Option JavaString → Except Thrown JavaString
  | none => .error (.illegalArgumentException (text "name null or empty"))
  | some [] => .error (.illegalArgumentException (text "name null or empty"))
  | some name => .ok name

/-! ## Asking -/

/-- `hasTerms()` -/
def hasTerms : Terms → Bool
  | none => false
  | some terms => terms ≠ ∅

/-- `hasTerm( name )` -/
def hasName (terms : Terms) (name : JavaString) : Bool :=
  match terms with
  | none => false
  | some terms => (terms.lookup name).isSome

/-- `hasTerm( name, value )` -/
def hasValue (terms : Terms) (name : JavaString) :
    Option JavaString → Bool
  | none => terms.hasName name
  | some value =>
      match terms with
      | none => false
      | some terms =>
          match terms.lookup name with
          | none => false
          | some (.list values) => values.contains value
          | some (.value other) => other == value

def hasTerm (terms : Terms) (name value : Option JavaString) :
    Except Thrown Bool := do
  let name ← checkName name
  return terms.hasValue name value

/-- The values of a name. -/
def values (terms : Terms) (name : JavaString) : List JavaString :=
  match terms with
  | none => []
  | some terms =>
      match terms.lookup name with
      | none => []
      | some (.list values) => values
      | some (.value value) => [value]

def getTerms (terms : Terms) (name : Option JavaString) :
    Except Thrown (List JavaString) := do
  let name ← checkName name
  return terms.values name

/-! ## Changing -/

/-- `ensureTerms()` -/
def ensureTerms : Terms → TermMap
  | none => ∅
  | some terms => terms

/-- `addTerm( name, value )` of a name that has been checked. -/
def addValue (terms : Terms) (name : JavaString) :
    Option JavaString → Terms
  | none => terms
  | some value =>
      let map := terms.ensureTerms
      match map.lookup name with
      | none => some (map.insert name (.value value))
      | some (.list values) =>
          if values.contains value then
            some map
          else
            some (map.insert name (.list (values ++ [value])))
      | some (.value old) => some (map.insert name (.list [old, value]))

def addTerm (terms : Terms) (name value : Option JavaString) :
    Except Thrown Terms := do
  let name ← checkName name
  return terms.addValue name value

/-- `removeTerm( name )` of a name that has been checked. -/
def removeName (terms : Terms) (name : JavaString) : Bool × Terms :=
  match terms with
  | none => (false, none)
  | some terms => ((terms.lookup name).isSome, some (terms.erase name))

/-- `removeTerm( name, value )` of a name that has been checked. -/
def removeValue (terms : Terms) (name : JavaString) :
    Option JavaString → Bool × Terms
  | none => terms.removeName name
  | some value =>
      match terms with
      | none => (false, none)
      | some terms =>
          match terms.lookup name with
          | none => (false, some terms)
          | some (.list values) =>
              let left := values.erase value
              (values.contains value,
                some (if left = [] then terms.erase name
                  else terms.insert name (.list left)))
          | some (.value old) =>
              if old = value then
                (true, some (terms.erase name))
              else
                (false, some terms)

def removeTerm (terms : Terms) (name value : Option JavaString) :
    Except Thrown (Bool × Terms) := do
  let name ← checkName name
  return terms.removeValue name value

/-- `clearTerms()` -/
def clearTerms (terms : Terms) : Terms :=
  terms.map fun _ => ∅

/-! ## What the terms are for -/

/-- The sets of values that the names have. -/
abbrev Values : Type :=
  JavaString → Set JavaString

/-- A call that may change the terms.  Without a value, `removeTerm` removes
all. -/
inductive Call where
  | addTerm (name value : Option JavaString)
  | removeTerm (name value : Option JavaString)
  | clearTerms

/-- The terms after a call, which are as before where it throws. -/
def after (terms : Terms) : Call → Terms
  | .addTerm name value =>
      match terms.addTerm name value with
      | .ok terms => terms
      | .error _ => terms
  | .removeTerm name value =>
      match terms.removeTerm name value with
      | .ok (_, terms) => terms
      | .error _ => terms
  | .clearTerms => terms.clearTerms

/-- The values after a call.  No name is null or empty, no value is null, and
null removes every value. -/
def Values.after (values : Values) : Call → Values
  | .addTerm (some name) (some value) =>
      if name = [] then values
      else Function.update values name (insert value (values name))
  | .addTerm _ _ => values
  | .removeTerm (some name) value =>
      if name = [] then values
      else Function.update values name
        (match value with
        | none => ∅
        | some value => values name \ {value})
  | .removeTerm none _ => values
  | .clearTerms => fun _ => ∅

/-- `getTerms` lists each value once, and `hasTerm` is true of them only.  Null
asks whether there is any. -/
structure Represents (terms : Terms) (values : Values) : Prop where
  nodup : ∀ name, (terms.values name).Nodup
  mem_iff : ∀ name value,
    value ∈ terms.values name ↔ value ∈ values name
  hasTerm : ∀ name value,
    terms.hasValue name (some value) = true ↔ value ∈ values name
  hasNull : ∀ name,
    terms.hasValue name none = true ↔ (values name).Nonempty

/-- The value is not added to a name of which it is the one value, standing
for itself. -/
def Fresh (terms : Terms) : Call → Prop
  | .addTerm (some name) (some value) =>
      name = [] ∨ terms.ensureTerms.lookup name ≠ some (.value value)
  | _ => True

/-! ## One name -/

/-- The values that a term stands for. -/
def elements : Option Term → List JavaString
  | none => []
  | some (.list values) => values
  | some (.value value) => [value]

/-- A term stands for a set of values. -/
structure Holds (term : Option Term) (values : Set JavaString) : Prop where
  nodup : (elements term).Nodup
  mem_iff : ∀ value, value ∈ elements term ↔ value ∈ values
  isSome_iff : term.isSome = true ↔ values.Nonempty

theorem values_eq (terms : Terms) (name : JavaString) :
    terms.values name = elements (terms.ensureTerms.lookup name) := by
  cases terms with
  | none => rfl
  | some terms => rfl

theorem hasValue_iff (terms : Terms) (name value : JavaString) :
    terms.hasValue name (some value) = true ↔
      value ∈ terms.values name := by
  cases terms with
  | none => simp [hasValue, values]
  | some terms =>
      unfold hasValue values
      dsimp only
      cases terms.lookup name with
      | none => simp
      | some term =>
          cases term with
          | list values => simp
          | value other =>
              rw [beq_iff_eq, List.mem_singleton]
              exact eq_comm

theorem hasName_eq (terms : Terms) (name : JavaString) :
    terms.hasValue name none = (terms.ensureTerms.lookup name).isSome := by
  cases terms with
  | none => rfl
  | some terms => rfl

theorem represents_iff (terms : Terms) (values : Values) :
    Represents terms values ↔
      ∀ name, Holds (terms.ensureTerms.lookup name) (values name) := by
  constructor
  · intro represents name
    have nodup := represents.nodup name
    have mem_iff := represents.mem_iff name
    have hasNull := represents.hasNull name
    rw [values_eq] at nodup
    simp only [values_eq] at mem_iff
    rw [hasName_eq] at hasNull
    exact ⟨nodup, mem_iff, hasNull⟩
  · intro holds
    have mem_iff (name value : JavaString) :
        value ∈ terms.values name ↔ value ∈ values name := by
      rw [values_eq]
      exact (holds name).mem_iff value
    refine ⟨fun name => ?_, mem_iff, fun name value => ?_, fun name => ?_⟩
    · rw [values_eq]
      exact (holds name).nodup
    · exact (hasValue_iff terms name value).trans (mem_iff name value)
    · rw [hasName_eq]
      exact (holds name).isSome_iff

/-- A change of one name is right as far as this name goes. -/
theorem Represents.update {terms next : Terms} {values : Values}
    (represents : Represents terms values) {name : JavaString}
    {changed : Set JavaString}
    (others : ∀ other, other ≠ name → next.ensureTerms.lookup other =
      terms.ensureTerms.lookup other)
    (holds : Holds (next.ensureTerms.lookup name) changed) :
    Represents next (Function.update values name changed) := by
  rw [represents_iff] at represents ⊢
  intro other
  by_cases same : other = name
  · subst same
    rwa [Function.update_self]
  · rw [others other same, Function.update_of_ne same]
    exact represents other

theorem Represents.insert {terms : Terms} {values : Values}
    (represents : Represents terms values) {name : JavaString} {term : Term}
    {changed : Set JavaString} (holds : Holds (some term) changed) :
    Represents (some (terms.ensureTerms.insert name term))
      (Function.update values name changed) := by
  refine represents.update
    (fun other different => Finmap.lookup_insert_of_ne _ different) ?_
  have found : (Terms.ensureTerms
      (some (terms.ensureTerms.insert name term))).lookup name = some term :=
    Finmap.lookup_insert _
  rwa [found]

theorem Represents.erase {terms : Terms} {values : Values}
    (represents : Represents terms values) (name : JavaString) :
    Represents (some (terms.ensureTerms.erase name))
      (Function.update values name ∅) := by
  refine represents.update
    (fun other different => Finmap.lookup_erase_ne different) ?_
  have found : (Terms.ensureTerms
      (some (terms.ensureTerms.erase name))).lookup name = none :=
    Finmap.lookup_erase name _
  rw [found]
  exact ⟨.nil, fun value => iff_of_false List.not_mem_nil id,
    iff_of_false nofun Set.not_nonempty_empty⟩

/-- Nothing changes where the values of a name stay what they are. -/
theorem Represents.same {terms next : Terms} {values : Values}
    (represents : Represents terms values)
    (maps : next.ensureTerms = terms.ensureTerms) {name : JavaString}
    {changed : Set JavaString} (unchanged : changed = values name) :
    Represents next (Function.update values name changed) := by
  rw [unchanged, Function.update_eq_self, represents_iff, maps]
  exact (represents_iff terms values).mp represents

theorem Represents.addValue {terms : Terms} {values : Values}
    (represents : Represents terms values) (name value : JavaString)
    (fresh : terms.ensureTerms.lookup name ≠ some (.value value)) :
    Represents (terms.addValue name (some value))
      (Function.update values name (Insert.insert value (values name))) := by
  have holds := (represents_iff terms values).mp represents name
  have nonempty : (some (Term.value value)).isSome = true ↔
      (Insert.insert value (values name)).Nonempty :=
    iff_of_true rfl (Set.insert_nonempty value _)
  unfold Terms.addValue
  dsimp only
  cases found : terms.ensureTerms.lookup name with
  | none =>
      rw [found] at holds
      refine represents.insert ⟨List.nodup_singleton value, ?_, nonempty⟩
      intro other
      have none := holds.mem_iff other
      simp only [elements, List.not_mem_nil, false_iff] at none
      simp [elements, none]
  | some term =>
      rw [found] at holds fresh
      cases term with
      | list old =>
          dsimp only
          by_cases has : old.contains value = true
          · rw [if_pos has]
            have there : value ∈ values name :=
              (holds.mem_iff value).mp (List.contains_iff_mem.mp has)
            refine represents.same ?_ (Set.insert_eq_of_mem there)
            rfl
          · rw [if_neg has]
            have new : value ∉ old :=
              fun there => has (List.contains_iff_mem.mpr there)
            refine represents.insert ⟨?_, fun other => ?_, nonempty⟩
            · exact List.nodup_append_comm.mp
                (List.nodup_cons.mpr ⟨new, holds.nodup⟩)
            · have mem_iff := holds.mem_iff other
              simp only [elements] at mem_iff
              simp [elements, mem_iff, or_comm]
      | value old =>
          have different : old ≠ value := fun same => fresh (by rw [same])
          refine represents.insert ⟨?_, fun other => ?_, nonempty⟩
          · simpa [elements] using different
          · have mem_iff := holds.mem_iff other
            simp only [elements, List.mem_singleton] at mem_iff
            simp [elements, mem_iff, or_comm]

theorem Represents.removeName {terms : Terms} {values : Values}
    (represents : Represents terms values) (name : JavaString) :
    Represents (terms.removeName name).2
      (Function.update values name ∅) := by
  cases terms with
  | some terms => exact represents.erase name
  | none =>
      refine represents.same rfl ?_
      have holds := (represents_iff none values).mp represents name
      refine (Set.not_nonempty_iff_eq_empty.mp fun some => ?_).symm
      exact nomatch holds.isSome_iff.mpr some

theorem Represents.removeValue {terms : Terms} {values : Values}
    (represents : Represents terms values) (name value : JavaString) :
    Represents (terms.removeValue name (some value)).2
      (Function.update values name (values name \ {value})) := by
  have holds := (represents_iff terms values).mp represents name
  cases terms with
  | none =>
      refine represents.same rfl ?_
      refine Set.sdiff_singleton_eq_self fun there => ?_
      exact nomatch (holds.mem_iff value).mpr there
  | some terms =>
      have emptied (none : values name \ {value} = ∅) :
          Represents (some (terms.erase name))
            (Function.update values name (values name \ {value})) := by
        rw [none]
        exact represents.erase name
      unfold Terms.removeValue
      dsimp only
      change Holds (terms.lookup name) _ at holds
      cases found : terms.lookup name with
      | none =>
          rw [found] at holds
          refine represents.same rfl ?_
          refine Set.sdiff_singleton_eq_self fun there => ?_
          exact nomatch (holds.mem_iff value).mpr there
      | some term =>
          rw [found] at holds
          cases term with
          | list old =>
              have nodup : old.Nodup := holds.nodup
              have left (other : JavaString) : other ∈ old.erase value ↔
                  other ∈ values name \ {value} := by
                rw [nodup.mem_erase_iff]
                have mem_iff := holds.mem_iff other
                simp only [elements] at mem_iff
                simp [mem_iff, and_comm]
              dsimp only
              by_cases empty : old.erase value = []
              · rw [if_pos empty]
                refine emptied (Set.eq_empty_iff_forall_notMem.mpr ?_)
                intro other there
                exact nomatch empty ▸ (left other).mpr there
              · rw [if_neg empty]
                refine represents.insert
                  ⟨nodup.erase value, left, ?_⟩
                obtain ⟨other, there⟩ := List.exists_mem_of_ne_nil _ empty
                exact iff_of_true rfl ⟨other, (left other).mp there⟩
          | value old =>
              have only (other : JavaString) :
                  other ∈ values name ↔ other = old := by
                rw [← holds.mem_iff other]
                exact List.mem_singleton
              dsimp only
              by_cases same : old = value
              · rw [if_pos same]
                refine emptied (Set.eq_empty_iff_forall_notMem.mpr ?_)
                rintro other ⟨there, different⟩
                exact different (((only other).mp there).trans same)
              · rw [if_neg same]
                refine represents.same rfl ?_
                refine Set.sdiff_singleton_eq_self fun there => ?_
                exact same ((only value).mp there).symm

/-! ## Sequences of calls -/

theorem represents_start : Represents none fun _ => ∅ :=
  (represents_iff none _).mpr fun _ =>
    ⟨.nil, fun _ => iff_of_false List.not_mem_nil id,
      iff_of_false nofun Set.not_nonempty_empty⟩

theorem checkName_eq (name : JavaString) :
    checkName (some name) = if name = [] then
      .error (.illegalArgumentException (text "name null or empty"))
    else .ok name := by
  cases name with
  | nil => rfl
  | cons c name => rfl

/-- What a call keeps that adds no value for the second time. -/
theorem Represents.after {terms : Terms} {values : Values}
    (represents : Represents terms values) {call : Call}
    (fresh : Fresh terms call) :
    Represents (terms.after call) (values.after call) := by
  cases call with
  | addTerm name value =>
      cases name with
      | none => exact represents
      | some name =>
          unfold Terms.after Terms.addTerm
          dsimp only
          rw [checkName_eq]
          by_cases blank : name = []
          · rw [if_pos blank]
            cases value with
            | none => exact represents
            | some value =>
                rw [Values.after, if_pos blank]
                exact represents
          · rw [if_neg blank]
            cases value with
            | none => exact represents
            | some value =>
                rw [Values.after, if_neg blank]
                exact represents.addValue name value
                  (fresh.resolve_left blank)
  | removeTerm name value =>
      cases name with
      | none => exact represents
      | some name =>
          unfold Terms.after Terms.removeTerm Values.after
          dsimp only
          rw [checkName_eq]
          by_cases blank : name = []
          · rw [if_pos blank, if_pos blank]
            exact represents
          · rw [if_neg blank, if_neg blank]
            cases value with
            | none => exact represents.removeName name
            | some value => exact represents.removeValue name value
  | clearTerms =>
      have empty := (represents_iff none _).mp represents_start
      cases terms with
      | none => exact represents_start
      | some terms => exact (represents_iff (some ∅) _).mpr empty

/-- A value that is added for the second time is listed twice. -/
theorem not_represents_after {terms : Terms} {call : Call}
    (again : ¬ Fresh terms call) (values : Values) :
    ¬ Represents (terms.after call) values := by
  intro represents
  cases call with
  | addTerm name value =>
      cases name with
      | none => exact again trivial
      | some name =>
          cases value with
          | none => exact again trivial
          | some value =>
              simp only [Fresh, not_or, not_not] at again
              obtain ⟨named, found⟩ := again
              have nodup := represents.nodup name
              unfold Terms.after Terms.addTerm at nodup
              dsimp only at nodup
              rw [checkName_eq, if_neg named] at nodup
              change ((terms.addValue name (some value)).values name).Nodup
                at nodup
              unfold Terms.addValue at nodup
              dsimp only at nodup
              rw [found] at nodup
              rw [values_eq] at nodup
              dsimp only [ensureTerms] at nodup
              rw [Finmap.lookup_insert] at nodup
              exact (List.nodup_cons.mp nodup).1 (List.mem_singleton_self _)
  | removeTerm name value => exact again trivial
  | clearTerms => exact again trivial

/-- The terms after a sequence of calls of a new `URL`. -/
def run (calls : List Call) : Terms :=
  calls.foldl after none

def Values.run (calls : List Call) : Values :=
  calls.foldl Values.after fun _ => ∅

/-- The terms are a map from names to sets of values throughout a sequence of
calls if and only if no call adds the one value of a name, standing for
itself, again. -/
theorem run_represents_iff (calls : List Call) :
    (∀ before, before <+: calls →
      Represents (run before) (Values.run before)) ↔
    ∀ before call, before ++ [call] <+: calls → Fresh (run before) call := by
  have after (before : List Call) (call : Call) :
      run (before ++ [call]) = (run before).after call ∧
        Values.run (before ++ [call]) = (Values.run before).after call := by
    simp [run, Values.run]
  constructor
  · intro represents before call extends'
    by_contra again
    have next := represents (before ++ [call]) extends'
    rw [(after before call).1] at next
    exact not_represents_after again _ next
  · intro fresh before
    induction before using List.reverseRecOn with
    | nil => exact fun _ => represents_start
    | append_singleton before call ih =>
        intro extends'
        rw [(after before call).1, (after before call).2]
        exact (ih ((List.prefix_append before [call]).trans extends')).after
          (fresh before call extends')

/-- The same term twice, and then taken away once. -/
theorem twice_remains :
    ¬ (∀ before, before <+: [Call.addTerm (some [97]) (some [49]),
        .addTerm (some [97]) (some [49]),
        .removeTerm (some [97]) (some [49])] →
      Represents (run before) (Values.run before)) ∧
    (run [.addTerm (some [97]) (some [49]),
      .addTerm (some [97]) (some [49]),
      .removeTerm (some [97]) (some [49])]).hasTerm (some [97])
        (some [49]) = .ok true := by
  refine ⟨fun represents => ?_, by decide⟩
  have nodup := (represents [.addTerm (some [97]) (some [49]),
    .addTerm (some [97]) (some [49])] (by simp)).nodup [97]
  exact absurd nodup (by decide)

end Terms

end Etch.Java
