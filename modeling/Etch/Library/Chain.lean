import Mathlib.Data.Set.Finite.Basic
import Mathlib.Order.WellFounded

/-!
# Chains

Every node has at most one link to another node.  A chain that stays among
finitely many nodes has a last node or runs into a circle; a node that is on a
circle is reached again from every node behind it.
-/

namespace Etch.Library.Chain

open Relation

variable {Node : Type*} {link : Node → Node → Prop}

/-- A node that has no link. -/
def Last (link : Node → Node → Prop) (node : Node) : Prop :=
  ∀ next, ¬link node next

/-- A circle leads back from every node that it leads to. -/
theorem back (unique : Relator.RightUnique link) {node next : Node}
    (circle : TransGen link node node) (leads : ReflTransGen link node next) :
    ReflTransGen link next node := by
  induction leads with
  | refl => exact .refl
  | @tail middle next _ step ih =>
      rcases ih.cases_head with rfl | ⟨other, first, rest⟩
      · obtain ⟨other, first, rest⟩ := TransGen.head'_iff.mp circle
        rwa [unique step first]
      · rwa [unique step first]

/-- No circle has a last node. -/
theorem not_circle (unique : Relator.RightUnique link) {node last : Node}
    (leads : ReflTransGen link node last) (ends : Last link last) :
    ¬TransGen link node node := by
  intro circle
  rcases (back unique circle leads).cases_head with rfl | ⟨next, step, _⟩
  · obtain ⟨next, step, _⟩ := TransGen.head'_iff.mp circle
    exact ends next step
  · exact ends next step

/-- A chain among finitely many nodes ends or runs into a circle. -/
theorem ends_or_circles {start : Node}
    (finite : {node | ReflTransGen link start node}.Finite) :
    (∃ last, ReflTransGen link start last ∧ Last link last) ∨
      ∃ node, ReflTransGen link start node ∧ TransGen link node node := by
  by_contra neither
  obtain ⟨noLast, noCircle⟩ := not_or.mp neither
  let Behind := {node // ReflTransGen link start node}
  have : Finite Behind := finite
  let before (next node : Behind) : Prop := TransGen link node.1 next.1
  have : IsTrans Behind before := ⟨fun _ _ _ first second =>
    second.trans first⟩
  have : Std.Irrefl before := ⟨fun node circle =>
    noCircle ⟨node.1, node.2, circle⟩⟩
  obtain ⟨last, _, least⟩ :=
    (Finite.wellFounded_of_trans_of_irrefl before).has_min Set.univ
      ⟨⟨start, .refl⟩, trivial⟩
  exact noLast ⟨last.1, last.2, fun next step =>
    least ⟨next, last.2.tail step⟩ trivial (.single step)⟩

end Etch.Library.Chain
