/-!
# Reading what stands in front

A computation that may fail reads a value from the symbols in front of what a
state has, and leaves the others.  With fuel it does so from some amount on.
What "has" means for a state is up to the user.
-/

namespace Etch.Library.Reading

variable {σ τ α β : Type} {has : σ → List τ → Prop}

/-- The value is read from what is in front, whatever is behind. -/
def Reads (has : σ → List τ → Prop) (m : StateT σ Option α)
    (front : List τ) (value : α) : Prop :=
  ∀ state rest, has state (front ++ rest) →
    ∃ after, m state = some (value, after) ∧ has after rest

theorem Reads.pure (value : α) :
    Reads has (Pure.pure value : StateT σ Option α) [] value :=
  fun state _ holds => ⟨state, rfl, holds⟩

theorem Reads.bind {m : StateT σ Option α} {rest : α → StateT σ Option β}
    {front front' : List τ} {value : α} {value' : β}
    (first : Reads has m front value)
    (second : Reads has (rest value) front' value') :
    Reads has (m >>= rest) (front ++ front') value' := by
  intro state behind holds
  rw [List.append_assoc] at holds
  obtain ⟨middle, done, holds⟩ := first state _ holds
  obtain ⟨after, done', holds⟩ := second middle behind holds
  refine ⟨after, ?_, holds⟩
  change Option.bind (m state) _ = _
  rw [done]
  exact done'

/-- Where the symbols are in front, only what comes next is left to do. -/
theorem Reads.bind_run {m : StateT σ Option α} {rest : α → StateT σ Option β}
    {front behind behind' : List τ} {value : α} {state : σ}
    {result : σ → Option (β × σ)} (reads : Reads has m front value)
    (holds : has state (front ++ behind))
    (next : ∀ middle, has middle behind →
      ∃ after, has after behind' ∧ rest value middle = result after) :
    ∃ after, has after behind' ∧ (m >>= rest) state = result after := by
  obtain ⟨middle, done, holds⟩ := reads state behind holds
  obtain ⟨after, holds, same⟩ := next middle holds
  refine ⟨after, holds, ?_⟩
  change Option.bind (m state) _ = _
  rw [done]
  exact same

theorem Reads.map {m : StateT σ Option α} {front : List τ} {value : α}
    (f : α → β) (reads : Reads has m front value) :
    Reads has (f <$> m) front (f value) := by
  intro state rest holds
  obtain ⟨after, done, holds⟩ := reads state rest holds
  refine ⟨after, ?_, holds⟩
  change Option.bind (m state) _ = _
  rw [done]
  rfl

/-- With enough fuel, the value is read. -/
def Settles (has : σ → List τ → Prop) (m : Nat → StateT σ Option α)
    (front : List τ) (value : α) : Prop :=
  ∃ fuel, ∀ more, fuel ≤ more → Reads has (m more) front value

namespace Settles

theorem of_reads {m : StateT σ Option α} {front : List τ} {value : α}
    (reads : Reads has m front value) :
    Settles has (fun _ => m) front value :=
  ⟨0, fun _ _ => reads⟩

theorem pure (value : α) :
    Settles has (fun _ => (Pure.pure value : StateT σ Option α)) [] value :=
  of_reads (.pure value)

theorem bind {m : Nat → StateT σ Option α}
    {rest : Nat → α → StateT σ Option β} {front front' : List τ}
    {value : α} {value' : β} (first : Settles has m front value)
    (second : Settles has (fun fuel => rest fuel value) front' value') :
    Settles has (fun fuel => m fuel >>= rest fuel) (front ++ front')
      value' := by
  obtain ⟨fuel, reads⟩ := first
  obtain ⟨fuel', reads'⟩ := second
  exact ⟨max fuel fuel', fun more enough =>
    (reads more (Nat.le_trans (Nat.le_max_left _ _) enough)).bind
      (reads' more (Nat.le_trans (Nat.le_max_right _ _) enough))⟩

theorem map {m : Nat → StateT σ Option α} {front : List τ} {value : α}
    (f : α → β) (settles : Settles has m front value) :
    Settles has (fun fuel => f <$> m fuel) front (f value) := by
  obtain ⟨fuel, reads⟩ := settles
  exact ⟨fuel, fun more enough => (reads more enough).map f⟩

/-- What is read first takes all that is in front. -/
theorem bind_nil {m : Nat → StateT σ Option α}
    {rest : Nat → α → StateT σ Option β} {front : List τ}
    {value : α} {value' : β} (first : Settles has m front value)
    (second : Settles has (fun fuel => rest fuel value) [] value') :
    Settles has (fun fuel => m fuel >>= rest fuel) front value' := by
  have both := first.bind second
  rwa [List.append_nil] at both

/-- A call that uses fuel. -/
theorem step {m m' : Nat → StateT σ Option α} {front : List τ} {value : α}
    (settles : Settles has m front value)
    (same : ∀ fuel, m' (fuel + 1) = m fuel) :
    Settles has m' front value := by
  obtain ⟨fuel, reads⟩ := settles
  refine ⟨fuel + 1, fun more enough => ?_⟩
  obtain ⟨less, rfl⟩ : ∃ less, more = less + 1 :=
    ⟨more - 1, by omega⟩
  rw [same]
  exact reads less (by omega)

end Settles

end Etch.Library.Reading
