import Mathlib.Data.List.Basic

/-!
# Descents along a list of keys

A call descends from node to node, one key after the other, until it finishes
at some node.  What a step along a key leads to is known apart from the call.
Then a property of the results can be decided from the nodes that the keys
lead to: it holds if and only if each of these nodes, as far as the call goes,
has what the call needs of it.
-/

namespace Etch.Library.Descent

variable {Node Key Result : Type*}

/-- What a call does at a node. -/
inductive Move (Node Result : Type*) where
  | finish (result : Result)
  | descend (child : Node)

/--
The result of a call, none where it is not defined.  No key is left behind
the last one, so a descent from there is not defined.
-/
def run (level : Node → Option Key → ℕ → Option (Move Node Result)) :
    List Key → ℕ → Node → Option Result
  | [], index, node =>
      match level node none index with
      | some (.finish result) => some result
      | _ => none
  | key :: keys, index, node =>
      match level node (some key) index with
      | some (.finish result) => some result
      | some (.descend child) => run level keys (index + 1) child
      | none => none

/-- What all ends from an index on have, the result of a call has. -/
theorem of_run {level : Node → Option Key → ℕ → Option (Move Node Result)}
    {property : Result → Prop} {keys : List Key} {index : ℕ} {node : Node}
    {result : Result}
    (each : ∀ later node key result, index ≤ later →
      level node key later = some (.finish result) → property result)
    (is : run level keys index node = some result) : property result := by
  induction keys generalizing index node with
  | nil =>
      rw [run] at is
      split at is
      · rename_i finishes
        rw [← Option.some.inj is]
        exact each index node none _ (Nat.le_refl _) finishes
      · cases is
  | cons key keys ih =>
      rw [run] at is
      split at is
      · rename_i finishes
        rw [← Option.some.inj is]
        exact each index node (some key) _ (Nat.le_refl _) finishes
      · exact ih (fun later node key result order =>
          each later node key result (by omega)) is
      · cases is

/-- The node that the first keys lead to. -/
def resolve (step : Node → Key → Option Node) (root : Node)
    (keys : List Key) : Option Node :=
  keys.foldlM step root

theorem resolve_append (step : Node → Key → Option Node) (root : Node)
    (keys : List Key) (key : Key) :
    resolve step root (keys ++ [key]) =
      (resolve step root keys).bind fun node => step node key := by
  simp [resolve, List.foldlM_append]

/-- The node that as many keys lead to. -/
def Reached (step : Node → Key → Option Node) (root : Node)
    (keys : List Key) (index : ℕ) (node : Node) : Prop :=
  index ≤ keys.length ∧ resolve step root (keys.take index) = some node

section Reached

variable {step : Node → Key → Option Node} {root node : Node}
  {keys : List Key} {index : ℕ}

theorem Reached.zero : Reached step root keys 0 root :=
  ⟨Nat.zero_le _, rfl⟩

theorem Reached.unique {other : Node}
    (reached : Reached step root keys index node)
    (reached' : Reached step root keys index other) : node = other :=
  Option.some.inj (reached.2.symm.trans reached'.2)

theorem reached_succ_iff {child : Node} :
    Reached step root keys (index + 1) child ↔
      ∃ node key, Reached step root keys index node ∧
        keys[index]? = some key ∧ step node key = some child := by
  constructor
  · rintro ⟨inside, resolved⟩
    have is : keys[index]? = some keys[index] :=
      List.getElem?_eq_getElem (by omega)
    rw [List.take_add_one, is, Option.toList_some, resolve_append,
      Option.bind_eq_some_iff] at resolved
    obtain ⟨node, before, last⟩ := resolved
    exact ⟨node, keys[index], ⟨by omega, before⟩, is, last⟩
  · rintro ⟨node, key, ⟨inside, before⟩, is, last⟩
    have below := (List.getElem?_eq_some_iff.mp is).1
    refine ⟨below, ?_⟩
    rw [List.take_add_one, is, Option.toList_some, resolve_append, before]
    exact last

/-- A node reached later is reached through all indexes before it. -/
theorem Reached.before {later : ℕ}
    (reached : Reached step root keys later node) (earlier : ℕ)
    (order : earlier ≤ later) :
    ∃ other, Reached step root keys earlier other := by
  induction later generalizing node with
  | zero =>
      obtain rfl : earlier = 0 := by omega
      exact ⟨node, reached⟩
  | succ later ih =>
      rcases Nat.lt_or_eq_of_le order with below | rfl
      · obtain ⟨before, _, reached', -, -⟩ := reached_succ_iff.mp reached
        exact ih reached' (by omega)
      · exact ⟨node, reached⟩

end Reached

/--
A call whose levels follow the steps has a good result if and only if every
node that the keys lead to, within the bound of the call, has what it needs.
-/
theorem exists_run_iff {step : Node → Key → Option Node}
    {level : Node → Option Key → ℕ → Option (Move Node Result)}
    {keys : List Key} {root : Node} {bound : ℕ → Prop}
    {needed : Node → ℕ → Prop} {good : Result → Prop}
    (start : bound 0) (down : ∀ index, bound (index + 1) → bound index)
    (follows : ∀ index node child, Reached step root keys index node →
      bound index →
      level node keys[index]? index = some (.descend child) →
        (∃ key, keys[index]? = some key ∧ step node key = some child) ∧
          needed node index ∧ bound (index + 1))
    (goes : ∀ index node child key, Reached step root keys index node →
      bound (index + 1) → keys[index]? = some key →
      step node key = some child →
        ∃ other, level node (some key) index = some (.descend other))
    (ends : ∀ index node, Reached step root keys index node →
      bound index →
      (∀ child, level node keys[index]? index ≠ some (.descend child)) →
        ((∃ result, level node keys[index]? index =
            some (.finish result) ∧ good result) ↔ needed node index)) :
    (∃ result, run level keys 0 root = some result ∧ good result) ↔
      ∀ index node, Reached step root keys index node → bound index →
        needed node index := by
  have bounded : ∀ later index, index ≤ later → bound later →
      bound index := by
    intro later index order
    induction order with
    | refl => exact id
    | step _ ih => exact fun high => ih (down _ high)
  -- at an end no node behind is reached within the bound
  have last : ∀ index node, Reached step root keys index node →
      bound index →
      (∀ child, level node keys[index]? index ≠ some (.descend child)) →
        (needed node index ↔ ∀ later other, index ≤ later →
          Reached step root keys later other → bound later →
            needed other later) := by
    intro index node reached low stops
    refine ⟨fun has later other order reached' high => ?_,
      fun all => all index node (Nat.le_refl _) reached low⟩
    rcases Nat.lt_or_eq_of_le order with behind | rfl
    · obtain ⟨next, reached₁⟩ := reached'.before (index + 1) behind
      obtain ⟨node', key, reached₀, is, along⟩ :=
        reached_succ_iff.mp reached₁
      obtain rfl := reached.unique reached₀
      obtain ⟨child, goes⟩ := goes index node next key reached
        (bounded _ _ behind high) is along
      rw [is] at stops
      exact absurd goes (stops child)
    · rwa [← reached.unique reached']
  have all : ∀ suffix index node, keys.drop index = suffix →
      Reached step root keys index node → bound index →
        ((∃ result, run level suffix index node = some result ∧
            good result) ↔
          ∀ later other, index ≤ later →
            Reached step root keys later other → bound later →
              needed other later) := by
    intro suffix
    induction suffix with
    | nil =>
        intro index node rest reached low
        have none_left : keys[index]? = none := by
          rw [List.getElem?_eq_none_iff, ← List.drop_eq_nil_iff, rest]
        have stops : ∀ child,
            level node keys[index]? index ≠ some (.descend child) := by
          intro child descends
          obtain ⟨⟨key, is, -⟩, -⟩ :=
            follows index node child reached low descends
          rw [none_left] at is
          cases is
        rw [← last index node reached low stops,
          ← ends index node reached low stops, none_left, run]
        split
        · rename_i result is
          simp [is]
        · rename_i other
          constructor
          · rintro ⟨result, is, -⟩
            cases is
          · rintro ⟨result, is, -⟩
            exact absurd is (other result)
    | cons key suffix ih =>
        intro index node rest reached low
        have is : keys[index]? = some key := by
          rw [← Nat.add_zero index, ← List.getElem?_drop, rest]
          rfl
        have rest' : keys.drop (index + 1) = suffix := by
          rw [← List.drop_drop, rest]
          rfl
        rw [run]
        split
        · rename_i result finishes
          have stops : ∀ child,
              level node keys[index]? index ≠ some (.descend child) := by
            intro child descends
            rw [is, finishes] at descends
            cases descends
          rw [← last index node reached low stops,
            ← ends index node reached low stops, is]
          simp [finishes]
        · rename_i child descends
          rw [← is] at descends
          obtain ⟨⟨key', is', along⟩, has, high⟩ :=
            follows index node child reached low descends
          have reached' : Reached step root keys (index + 1) child :=
            reached_succ_iff.mpr ⟨node, key', reached, is', along⟩
          rw [ih (index + 1) child rest' reached' high]
          constructor
          · intro rest later other order reached₁ high₁
            rcases Nat.lt_or_eq_of_le order with behind | rfl
            · exact rest later other behind reached₁ high₁
            · rwa [← reached.unique reached₁]
          · intro all later other order
            exact all later other (by omega)
        · rename_i undefined
          have stops : ∀ child,
              level node keys[index]? index ≠ some (.descend child) := by
            intro child descends
            rw [is, undefined] at descends
            cases descends
          rw [← last index node reached low stops,
            ← ends index node reached low stops, is]
          simp [undefined]
  rw [all keys 0 root rfl .zero start]
  exact ⟨fun from_ index node => from_ index node (Nat.zero_le _),
    fun from_ index node _ => from_ index node⟩

end Etch.Library.Descent
