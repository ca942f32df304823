/-!
# Computations that change a state and may fail

Triples for the state monad with exceptions, where a computation that fails
leaves a state as well.  `Keeps` is the triple of an invariant; the rules
follow the way a computation is put together.
-/

namespace Etch.Library.Stateful

variable {σ ε α β : Type}

/-- From states with `pre`, what is returned or thrown, and the state then. -/
def Triple (pre : σ → Prop) (m : EStateM ε σ α) (post : α → σ → Prop)
    (fails : σ → Prop) : Prop :=
  ∀ state, pre state →
    match m state with
    | .ok value after => post value after
    | .error _ after => fails after

/-- A computation, and another one where it fails, in the state it has left. -/
def catching (m : EStateM ε σ α) (handler : ε → EStateM ε σ α) :
    EStateM ε σ α :=
  fun state =>
    match m state with
    | .ok value after => .ok value after
    | .error thrown after => handler thrown after

/-- An invariant holds afterwards, also where the computation fails. -/
def Keeps (invariant : σ → Prop) (m : EStateM ε σ α) : Prop :=
  Triple invariant m (fun _ => invariant) invariant

/-- The state that a computation has left. -/
def final : EStateM.Result ε σ α → σ
  | .ok _ after => after
  | .error _ after => after

theorem bind_ok {m : EStateM ε σ α} {rest : α → EStateM ε σ β}
    {state middle : σ} {value : α} (first : m state = .ok value middle) :
    (m >>= rest) state = rest value middle := by
  change EStateM.bind m rest state = _
  rw [EStateM.bind, first]

theorem bind_error {m : EStateM ε σ α} {rest : α → EStateM ε σ β}
    {state middle : σ} {thrown : ε} (first : m state = .error thrown middle) :
    (m >>= rest) state = .error thrown middle := by
  change EStateM.bind m rest state = _
  rw [EStateM.bind, first]

/-- A sequence succeeds when each of its parts does. -/
theorem bind_eq_ok_iff {m : EStateM ε σ α} {rest : α → EStateM ε σ β}
    {state final : σ} {result : β} :
    (m >>= rest) state = .ok result final ↔
      ∃ value middle, m state = .ok value middle ∧
        rest value middle = .ok result final := by
  cases first : m state with
  | ok value middle =>
      rw [bind_ok first]
      constructor
      · exact fun done => ⟨value, middle, rfl, done⟩
      · rintro ⟨value', middle', same, done⟩
        obtain ⟨rfl, rfl⟩ := EStateM.Result.ok.inj same
        exact done
  | error thrown middle =>
      rw [bind_error first]
      constructor
      · exact fun done => nomatch done
      · rintro ⟨value', middle', same, _⟩
        exact nomatch same

namespace Triple

variable {pre : σ → Prop} {fails : σ → Prop}

theorem throw {post : α → σ → Prop} (thrown : ε)
    (holds : ∀ state, pre state → fails state) :
    Triple pre (MonadExcept.throw thrown : EStateM ε σ α) post fails :=
  holds

theorem bind {m : EStateM ε σ α} {rest : α → EStateM ε σ β}
    {middle : α → σ → Prop} {post : β → σ → Prop}
    (first : Triple pre m middle fails)
    (next : ∀ value, Triple (middle value) (rest value) post fails) :
    Triple pre (m >>= rest) post fails := by
  intro state holds
  have first := first state holds
  cases done : m state with
  | ok value after =>
      rw [done] at first
      rw [bind_ok done]
      exact next value after first
  | error thrown after =>
      rw [done] at first
      rw [bind_error done]
      exact first

theorem consequence {m : EStateM ε σ α} {pre' : σ → Prop}
    {post post' : α → σ → Prop} {fails' : σ → Prop}
    (triple : Triple pre m post fails)
    (stronger : ∀ state, pre' state → pre state)
    (weaker : ∀ value state, post value state → post' value state)
    (failing : ∀ state, fails state → fails' state) :
    Triple pre' m post' fails' := by
  intro state holds
  have triple := triple state (stronger state holds)
  cases done : m state with
  | ok value after =>
      rw [done] at triple
      exact weaker value after triple
  | error thrown after =>
      rw [done] at triple
      exact failing after triple

/-- What holds of both outcomes holds of the state that is left. -/
theorem final {m : EStateM ε σ α} {post : α → σ → Prop}
    (triple : Triple pre m post fails)
    (also : ∀ value state, post value state → fails state) {state : σ}
    (holds : pre state) : fails (Stateful.final (m state)) := by
  have after := triple state holds
  cases done : m state with
  | ok value next =>
      rw [done] at after
      exact also value next after
  | error thrown next =>
      rw [done] at after
      exact after

end Triple

namespace Keeps

variable {invariant : σ → Prop}

theorem pure (value : α) :
    Keeps (ε := ε) invariant (Pure.pure value) :=
  fun _ holds => holds

theorem throw (thrown : ε) :
    Keeps invariant (MonadExcept.throw thrown : EStateM ε σ α) :=
  fun _ holds => holds

theorem bind {m : EStateM ε σ α} {rest : α → EStateM ε σ β}
    (first : Keeps invariant m) (next : ∀ value, Keeps invariant (rest value)) :
    Keeps invariant (m >>= rest) :=
  Triple.bind first next

theorem final {m : EStateM ε σ α} (keeps : Keeps invariant m) {state : σ}
    (holds : invariant state) : invariant (Stateful.final (m state)) :=
  Triple.final keeps (fun _ _ => id) holds

theorem catching {m : EStateM ε σ α} {handler : ε → EStateM ε σ α}
    (first : Keeps invariant m)
    (handles : ∀ thrown, Keeps invariant (handler thrown)) :
    Keeps invariant (Stateful.catching m handler) := by
  intro state holds
  have first := first state holds
  unfold Stateful.catching
  cases done : m state with
  | ok value after =>
      rw [done] at first
      exact first
  | error thrown after =>
      rw [done] at first
      exact handles thrown after first

theorem ite {condition : Prop} [Decidable condition] {m n : EStateM ε σ α}
    (first : Keeps invariant m) (second : Keeps invariant n) :
    Keeps invariant (if condition then m else n) := by
  split
  · exact first
  · exact second

end Keeps

/-- Whatever is thrown is allowed. -/
def ThrowsOnly (allowed : ε → Prop) (m : EStateM ε σ α) : Prop :=
  ∀ state thrown after, m state = .error thrown after → allowed thrown

namespace ThrowsOnly

variable {allowed : ε → Prop}

theorem pure (value : α) :
    ThrowsOnly allowed (Pure.pure value : EStateM ε σ α) :=
  fun _ _ _ threw => nomatch threw

theorem throw {thrown : ε} (is : allowed thrown) :
    ThrowsOnly allowed (MonadExcept.throw thrown : EStateM ε σ α) := by
  intro state thrown' after threw
  obtain ⟨rfl, rfl⟩ := EStateM.Result.error.inj threw
  exact is

theorem bind {m : EStateM ε σ α} {rest : α → EStateM ε σ β}
    (first : ThrowsOnly allowed m)
    (next : ∀ value, ThrowsOnly allowed (rest value)) :
    ThrowsOnly allowed (m >>= rest) := by
  intro state thrown after threw
  cases done : m state with
  | ok value middle =>
      rw [bind_ok done] at threw
      exact next value middle thrown after threw
  | error thrown' middle =>
      rw [bind_error done] at threw
      obtain ⟨rfl, rfl⟩ := EStateM.Result.error.inj threw
      exact first state _ _ done

end ThrowsOnly

/-- Whatever is returned is good. -/
def Returns (good : α → Prop) (m : EStateM ε σ α) : Prop :=
  ∀ state value after, m state = .ok value after → good value

namespace Returns

variable {good : α → Prop} {m : EStateM ε σ α}

theorem pure {value : α} (is : good value) :
    Returns good (Pure.pure value : EStateM ε σ α) := by
  intro state value' after done
  obtain ⟨rfl, rfl⟩ := EStateM.Result.ok.inj done
  exact is

theorem throw (thrown : ε) :
    Returns good (MonadExcept.throw thrown : EStateM ε σ α) :=
  fun _ _ _ done => nomatch done

theorem bind {good' : β → Prop} {rest : α → EStateM ε σ β}
    (first : Returns good m)
    (next : ∀ value, good value → Returns good' (rest value)) :
    Returns good' (m >>= rest) := by
  intro state result after done
  obtain ⟨value, middle, got, done⟩ := bind_eq_ok_iff.mp done
  exact next value (first _ _ _ got) _ _ _ done

/-- Nothing need be known of what is returned first. -/
theorem andThen {good' : β → Prop} {rest : α → EStateM ε σ β}
    (next : ∀ value, Returns good' (rest value)) :
    Returns good' (m >>= rest) :=
  have first : Returns (fun _ => True) m := fun _ _ _ _ => trivial
  first.bind fun value _ => next value

theorem ite {condition : Prop} [Decidable condition]
    {n : EStateM ε σ α} (first : Returns good m)
    (second : Returns good n) :
    Returns good (if condition then m else n) := by
  split
  · exact first
  · exact second

end Returns

end Etch.Library.Stateful
