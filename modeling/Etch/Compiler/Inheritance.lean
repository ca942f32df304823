import Etch.Compiler.Resolution
import Etch.Library.Fueled

/-!
# What services may inherit

The check of a declaration follows what it extends until the end, or until it
comes back to the declaration.  It does neither where the chain runs into a
circle that the declaration is not part of.
-/

namespace Etch.Compiler

open Etch.Java Etch.Library Etch.Library.Fueled
open Relation (ReflTransGen TransGen)

/-- A parsed service has one thing for a name, and has mixed in what has been
checked. -/
inductive Parsed : Service → Prop where
  | intro {service : Service}
      (names : (service.nameList.map Named.name).Nodup)
      (mixins : ∀ name mixed, .mixin name mixed ∈ service.nameList →
        Parsed mixed)
      (checked : ∀ name mixed, .mixin name mixed ∈ service.nameList →
        Settles (fun fuel => mixed.check fuel) (.ok ())) : Parsed service

/-! ## The end of a chain -/

namespace Node

variable {kind : Kind} {node base last : Node} {thrown : Thrown}

/-- A declaration that extends nothing. -/
def Root (node : Node) : Prop :=
  node.declaration.xtnds = none

/-- A declaration that extends something which is not there. -/
def Dangling (kind : Kind) (node : Node) : Prop :=
  node.declaration.xtnds.isSome = true ∧ node.getExtends kind = .ok none

/-- A declaration that extends a thing of another kind, or whose name for it
cannot be looked up. -/
def Faulty (kind : Kind) (node : Node) (thrown : Thrown) : Prop :=
  node.getExtends kind = .error thrown

theorem isSome_of_extends (step : Extends kind node base) :
    node.declaration.xtnds.isSome = true := by
  obtain ⟨xtnds, _, some, _⟩ := extends_iff.mp step
  rw [some]
  rfl

theorem Faulty.isSome (faulty : node.Faulty kind thrown) :
    node.declaration.xtnds.isSome = true := by
  cases none : node.declaration.xtnds with
  | none =>
      rw [Faulty, getExtends, none] at faulty
      cases faulty
  | some xtnds => rfl

theorem Root.isLast (root : node.Root) : Chain.Last (Extends kind) node := by
  intro base step
  have some := isSome_of_extends step
  rw [root] at some
  contradiction

theorem Dangling.isLast (dangling : node.Dangling kind) :
    Chain.Last (Extends kind) node := by
  intro base step
  cases dangling.2.symm.trans step

theorem Faulty.isLast (faulty : node.Faulty kind thrown) :
    Chain.Last (Extends kind) node := by
  intro base step
  cases faulty.symm.trans step

/-- What is thrown at the end of a chain is no `ParseException`. -/
theorem Faulty.not_parseException {message : JavaString} :
    ¬node.Faulty kind (.parseException message) := by
  intro faulty
  unfold Faulty getExtends at faulty
  split at faulty
  · cases faulty
  next xtnds _ =>
    cases found : node.service.get xtnds.name with
    | error thrown =>
        rw [found] at faulty
        cases faulty
        cases Service.get_error _ found
    | ok result =>
        rw [found] at faulty
        simp only [bind, Except.bind] at faulty
        split at faulty
        · cases faulty
        · split at faulty
          · cases faulty
          · cases faulty
        · cases faulty

/-- The three ways in which a chain ends. -/
theorem last_cases (ends : Chain.Last (Extends kind) node) :
    node.Root ∨ node.Dangling kind ∨ ∃ thrown, node.Faulty kind thrown := by
  cases some : node.declaration.xtnds with
  | none => exact .inl some
  | some xtnds =>
      have isSome : node.declaration.xtnds.isSome = true := by
        rw [some]
        rfl
      cases extended : node.getExtends kind with
      | error thrown => exact .inr (.inr ⟨thrown, extended⟩)
      | ok result =>
          cases result with
          | none => exact .inr (.inl ⟨isSome, extended⟩)
          | some base => exact absurd extended (ends base)

end Node

/-! ## The loop -/

namespace Wording

variable {wording : Wording} {this node base last : Node} {xtnds : Name}

theorem round_again (step : Extends wording.kind node base)
    (other : base.same this = false) :
    wording.round this xtnds (some node) = .again (some base) := by
  unfold Extends at step
  simp [round, Node.isSome_of_extends step, step, other]

theorem round_loop (step : Extends wording.kind node base)
    (itself : base.same this = true) :
    wording.round this xtnds (some node) =
      .leave (.error (wording.extendsText this.declaration xtnds
        (text "creates loop"))) := by
  unfold Extends at step
  simp [round, Node.isSome_of_extends step, step, itself]

theorem round_root (root : node.Root) :
    wording.round this xtnds (some node) = .leave (.ok ()) := by
  unfold Node.Root at root
  simp [round, root]

theorem round_dangling (dangling : node.Dangling wording.kind) :
    wording.round this xtnds (some node) = .again none := by
  simp [round, dangling.1, dangling.2]

theorem round_faulty {thrown : Thrown}
    (faulty : node.Faulty wording.kind thrown) :
    wording.round this xtnds (some node) = .leave (.error thrown) := by
  have some := faulty.isSome
  unfold Node.Faulty at faulty
  simp [round, some, faulty]

/-- The loop gets to the end of a chain that does not come back. -/
theorem returns_of_end {result : Except Thrown Unit}
    (leads : ReflTransGen (Extends wording.kind) node last)
    (others : ∀ base, TransGen (Extends wording.kind) node base →
      base.same this = false)
    (returns : Loop.Returns (wording.round this xtnds) (some last) result) :
    Loop.Returns (wording.round this xtnds) (some node) result := by
  induction leads using ReflTransGen.head_induction_on with
  | refl => exact returns
  | @head node next step _ ih =>
      exact .again (round_again step (others next (.single step)))
        (ih fun base leads => others base (.head step leads))

/-- The loop finds the declaration itself. -/
theorem returns_of_loop (leads : TransGen (Extends wording.kind) node this)
    (itself : this.same this = true) :
    Loop.Returns (wording.round this xtnds) (some node)
      (.error (wording.extendsText this.declaration xtnds
        (text "creates loop"))) := by
  induction leads using TransGen.head_induction_on with
  | single step => exact .leave (round_loop step itself)
  | @head node next step _ ih =>
      cases found : next.same this with
      | true => exact .leave (round_loop step found)
      | false => exact .again (round_again step found) ih

/-- The loop goes round a circle that the declaration is not part of. -/
theorem diverges_of_circle
    (leads : ReflTransGen (Extends wording.kind) node base)
    (circle : TransGen (Extends wording.kind) base base)
    (others : ∀ base, TransGen (Extends wording.kind) node base →
      base.same this = false) :
    Loop.Diverges (wording.round this xtnds) (some node) := by
  apply Loop.diverges_of_invariant fun state => ∃ node,
    state = some node ∧ ReflTransGen (Extends wording.kind) node base ∧
      ∀ base, TransGen (Extends wording.kind) node base →
        base.same this = false
  · rintro _ ⟨node, rfl, leads, others⟩
    -- from the circle as well there is a way on to the same declaration
    have goesOn : TransGen (Extends wording.kind) node base :=
      TransGen.trans_right leads circle
    obtain ⟨next, step, rest⟩ := TransGen.head'_iff.mp goesOn
    exact ⟨some next, round_again step (others next (.single step)), next,
      rfl, rest, fun other leads => others other (.head step leads)⟩
  · exact ⟨node, rfl, leads, others⟩

end Wording

/-! ## Parameters -/

namespace Node

variable {kind : Kind} {node base owner last : Node} {name : JavaString}

/-- No declaration of the chain from a node on has a parameter of a name. -/
def Lacks (kind : Kind) (node : Node) (name : JavaString) : Prop :=
  ∀ owner, ReflTransGen (Extends kind) node owner →
    owner.getOwnParameter name = none

theorem getParameter_own {parameter : Parameter}
    (own : node.getOwnParameter name = some parameter) (fuel : Nat) :
    node.getParameter kind (fuel + 1) name =
      some (.ok (some (parameter, node))) := by
  simp [getParameter, own]

theorem getParameter_extends (own : node.getOwnParameter name = none)
    (step : Extends kind node base) (fuel : Nat) :
    node.getParameter kind (fuel + 1) name =
      base.getParameter kind fuel name := by
  have some := isSome_of_extends step
  unfold Extends at step
  simp [getParameter, own, some, step]

/-- The first declaration with the parameter is found. -/
theorem getParameter_found
    (leads : ReflTransGen (Extends kind) node owner)
    (declares : owner.getOwnParameter name ≠ none) :
    ∃ hidden holder, Settles (fun fuel => node.getParameter kind fuel name)
      (.ok (some (hidden, holder))) := by
  induction leads using ReflTransGen.head_induction_on with
  | refl =>
      obtain ⟨parameter, own⟩ := Option.ne_none_iff_exists'.mp declares
      refine ⟨parameter, owner, 1, fun more order => ?_⟩
      obtain ⟨fuel, rfl⟩ := Nat.exists_eq_add_of_le' order
      exact getParameter_own own fuel
  | @head node next step _ ih =>
      cases own : node.getOwnParameter name with
      | some parameter =>
          refine ⟨parameter, node, 1, fun more order => ?_⟩
          obtain ⟨fuel, rfl⟩ := Nat.exists_eq_add_of_le' order
          exact getParameter_own own fuel
      | none =>
          obtain ⟨hidden, holder, fuel, done⟩ := ih
          refine ⟨hidden, holder, fuel + 1, fun more order => ?_⟩
          obtain ⟨rest, rfl⟩ := Nat.exists_eq_add_of_le' order
          show node.getParameter kind (rest + (fuel + 1)) name = _
          rw [← Nat.add_assoc, getParameter_extends own step]
          exact done _ (Nat.le_add_left _ _)

/-- A parameter that no declaration has is looked for to the end. -/
theorem getParameter_lacks {result : Except Thrown (Option (Parameter × Node))}
    (leads : ReflTransGen (Extends kind) node last)
    (lacks : node.Lacks kind name)
    (ends : Settles (fun fuel => last.getParameter kind fuel name) result) :
    Settles (fun fuel => node.getParameter kind fuel name) result := by
  induction leads using ReflTransGen.head_induction_on with
  | refl => exact ends
  | @head node next step _ ih =>
      obtain ⟨fuel, done⟩ := ih fun owner leads =>
        lacks owner (.head step leads)
      refine ⟨fuel + 1, fun more order => ?_⟩
      obtain ⟨rest, rfl⟩ := Nat.exists_eq_add_of_le' order
      show node.getParameter kind (rest + (fuel + 1)) name = _
      rw [← Nat.add_assoc, getParameter_extends (lacks node .refl) step]
      exact done _ (Nat.le_add_left _ _)

theorem getParameter_root (root : node.Root)
    (own : node.getOwnParameter name = none) :
    Settles (fun fuel => node.getParameter kind fuel name) (.ok none) := by
  refine ⟨1, fun more order => ?_⟩
  obtain ⟨fuel, rfl⟩ := Nat.exists_eq_add_of_le' order
  unfold Root at root
  simp [getParameter, own, root]

theorem getParameter_dangling (dangling : node.Dangling kind)
    (own : node.getOwnParameter name = none) :
    Settles (fun fuel => node.getParameter kind fuel name)
      (.error .nullPointerException) := by
  refine ⟨1, fun more order => ?_⟩
  obtain ⟨fuel, rfl⟩ := Nat.exists_eq_add_of_le' order
  simp [getParameter, own, dangling.1, dangling.2]

/-! ## The declaration that is checked -/

variable {service : Service} {declaration : ParamList}

theorem same_self (node : Node) : node.same node = true := by
  simp [same]

/-- In a service with one thing for a name, a declaration is told apart from
those it extends by its name and by the mixins on the way. -/
theorem same_this (parsed : Parsed service)
    (member : .paramList kind declaration ∈ service.nameList)
    (of : node.Of kind service)
    (itself : node.same (this service declaration) = true) :
    node = this service declaration := by
  obtain ⟨path, inner, other⟩ := node
  obtain ⟨samePath, sameName⟩ := Bool.and_eq_true_iff.mp itself
  obtain rfl : path = [] := beq_iff_eq.mp samePath
  obtain rfl := of.1.eq_of_nil
  cases parsed with
  | intro names _ _ =>
      have same := List.inj_on_of_nodup_map names of.2 member
        (beq_iff_eq.mp sameName)
      cases same
      rfl

/-- A chain that does not come back to the declaration does not meet it. -/
theorem others_of_not_circle (parsed : Parsed service)
    (member : .paramList kind declaration ∈ service.nameList)
    (open_ : ¬TransGen (Extends kind) (this service declaration)
      (this service declaration)) (base : Node)
    (leads : TransGen (Extends kind) (this service declaration) base) :
    base.same (this service declaration) = false := by
  refine Bool.eq_false_iff.mpr fun itself => ?_
  have of := of_extends_all (this_of member) leads.to_reflTransGen
  rw [same_this parsed member of itself] at leads
  exact open_ leads

end Node

/-! ## What a check comes to -/

/-- A computation ends with a `ParseException`. -/
def Rejects (run : Nat → ExceptT Thrown Option Unit) : Prop :=
  ∃ message, Settles run (.error (.parseException message))

/-- A computation does not end, or ends with another exception. -/
def GoesWrong (run : Nat → ExceptT Thrown Option Unit) : Prop :=
  Stalls run ∨ ∃ thrown, (∀ message, thrown ≠ .parseException message) ∧
    Settles run (.error thrown)

/-- A type is a keyword, or the name of a type. -/
def TypeRef.Defined (service : Service) (type : TypeRef) : Prop :=
  type.isBuiltin = true ∨ ∃ entry,
    service.get type.image = .ok (some entry) ∧ entry.named.isType = true

theorem TypeRef.check_ok {service : Service} {type : TypeRef}
    (defined : type.Defined service) : type.check service = .ok () := by
  rcases defined with builtin | ⟨entry, found, isType⟩
  · simp only [check, builtin]
    rfl
  · unfold check
    split
    · rfl
    · simp only [found, bind, Except.bind, isType]
      rfl

/-- A type that is not defined is rejected, unless its name cannot be looked
up. -/
theorem TypeRef.check_error {service : Service} {type : TypeRef}
    (undefined : ¬type.Defined service) :
    (∃ message, type.check service = .error (.parseException message)) ∨
      ∃ thrown, type.isBuiltin = false ∧
        service.get type.image = .error thrown := by
  obtain ⟨named, noType⟩ := not_or.mp undefined
  have named := Bool.eq_false_iff.mpr named
  cases found : service.get type.image with
  | error thrown => exact .inr ⟨thrown, named, rfl⟩
  | ok result =>
      simp only [check, named, found, bind, Except.bind]
      cases result with
      | none => exact .inl ⟨_, rfl⟩
      | some entry =>
          have noType := Bool.eq_false_iff.mpr fun isType =>
            noType ⟨entry, found, isType⟩
          simp only [noType]
          exact .inl ⟨_, rfl⟩

theorem TypeRef.check_get_error {service : Service} {type : TypeRef}
    {thrown : Thrown} (named : type.isBuiltin = false)
    (fails : service.get type.image = .error thrown) :
    type.check service = .error thrown := by
  simp only [check, named, fails, bind, Except.bind]
  rfl

/-- A declaration that passes its check. -/
structure ParamList.Passes (service : Service) (kind : Kind)
    (declaration : ParamList) : Prop where
  types : ∀ parameter ∈ declaration.parameters,
    parameter.type.Defined service
  /-- what it extends is there, and of its kind -/
  target : declaration.xtnds ≠ none →
    ∃ base, Extends kind (.this service declaration) base
  ending : ∃ last, ReflTransGen (Extends kind) (.this service declaration)
    last ∧ (last.Root ∨ last.Dangling kind ∧ declaration.parameters = [])
  hides : ∀ base, TransGen (Extends kind) (.this service declaration) base →
    ∀ parameter ∈ declaration.parameters,
      base.getOwnParameter parameter.name = none

/-- A declaration whose check does not end, or throws what it should not. -/
inductive ParamList.Astray (service : Service) (kind : Kind)
    (declaration : ParamList) : Prop where
  /-- the name of a type cannot be looked up -/
  | type (before after : List Parameter) (parameter : Parameter)
      (thrown : Thrown)
      (parts : declaration.parameters = before ++ parameter :: after)
      (types : ∀ other ∈ before, other.type.Defined service)
      (named : parameter.type.isBuiltin = false)
      (fails : service.get parameter.type.image = .error thrown)
  /-- the name of what it extends cannot be looked up -/
  | target (xtnds : Name) (thrown : Thrown)
      (types : ∀ parameter ∈ declaration.parameters,
        parameter.type.Defined service)
      (some : declaration.xtnds = some xtnds)
      (fails : service.get xtnds.name = .error thrown)
  /-- a declaration that it extends extends a thing of another kind -/
  | faulty (last : Node) (thrown : Thrown)
      (types : ∀ parameter ∈ declaration.parameters,
        parameter.type.Defined service)
      (leads : TransGen (Extends kind) (.this service declaration) last)
      (faulty : last.Faulty kind thrown)
  /-- a declaration that it extends extends something which is not there, and
  it has a parameter that is looked for up to that point -/
  | dangling (last : Node) (parameter : Parameter) (rest : List Parameter)
      (types : ∀ parameter ∈ declaration.parameters,
        parameter.type.Defined service)
      (leads : TransGen (Extends kind) (.this service declaration) last)
      (dangling : last.Dangling kind)
      (parts : declaration.parameters = parameter :: rest)
      (lacks : ∀ base,
        TransGen (Extends kind) (.this service declaration) base →
          base.getOwnParameter parameter.name = none)
  /-- what it extends runs into a circle that it is not part of -/
  | circle (base : Node)
      (types : ∀ parameter ∈ declaration.parameters,
        parameter.type.Defined service)
      (leads : TransGen (Extends kind) (.this service declaration) base)
      (circle : TransGen (Extends kind) base base)
      (apart : ¬TransGen (Extends kind) (.this service declaration)
        (.this service declaration))

namespace Wording

variable {wording : Wording} {service : Service} {declaration : ParamList}
  {xtnds : Name} {base last : Node} {parameter : Parameter}

/-! ### The stages of a check -/

theorem settles_of_returns {this : Node} {state : Option Node}
    {result : Except Thrown Unit}
    (returns : Loop.Returns (wording.round this xtnds) state result) :
    Settles (fun fuel => Loop.run (wording.round this xtnds) fuel state)
      result := by
  obtain ⟨fuel, done⟩ := returns
  exact ⟨fuel, fun more order => Loop.run_mono order done⟩

theorem types_settle {parameters : List Parameter}
    (types : ∀ parameter ∈ parameters, parameter.type.Defined service) :
    Settles (fun _ => (parameters.forM fun parameter =>
      liftM (parameter.type.check service) : ExceptT Thrown Option Unit))
      (.ok ()) := by
  apply forM_settles_ok
  intro parameter member
  rw [TypeRef.check_ok (types parameter member)]
  exact .const _

/-- With all types defined a check is about what the declaration extends. -/
theorem check_of_types
    (types : ∀ parameter ∈ declaration.parameters,
      parameter.type.Defined service)
    (some : declaration.xtnds = some xtnds) {result : Except Thrown Unit}
    (settles : Settles (fun fuel =>
      wording.checkExtends fuel (.this service declaration) xtnds) result) :
    Settles (fun fuel => wording.check fuel service declaration) result := by
  unfold check
  rw [some]
  exact (types_settle types).bind settles

theorem check_stalls_of_types
    (types : ∀ parameter ∈ declaration.parameters,
      parameter.type.Defined service)
    (some : declaration.xtnds = some xtnds)
    (stalls : Stalls (fun fuel =>
      wording.checkExtends fuel (.this service declaration) xtnds)) :
    Stalls (fun fuel => wording.check fuel service declaration) := by
  unfold check
  rw [some]
  exact .bind_rest (types_settle types) stalls

/-- A declaration that extends one of its kind enters the loop. -/
theorem checkExtends_eq {this : Node}
    (extended : this.declaration.xtnds = some xtnds)
    (step : Extends wording.kind this base) (fuel : Nat) :
    wording.checkExtends fuel this xtnds =
      (do
        ExceptT.mk (Loop.run (wording.round this xtnds) fuel (some this))
        this.declaration.parameters.forM
          (wording.hides fuel this.declaration xtnds (some base))) := by
  obtain ⟨xtnds', path, extended', found, _⟩ := Node.extends_iff.mp step
  obtain rfl := Option.some.inj (extended.symm.trans extended')
  unfold Extends at step
  unfold checkExtends
  rw [found, step]
  show (if (wording.kind == wording.kind) = true then _ else _) = _
  rw [if_pos (beq_self_eq_true _)]
  rfl

/-- What a declaration extends is there and of its kind, or it is rejected,
or cannot be looked up. -/
theorem target_cases
    (types : ∀ parameter ∈ declaration.parameters,
      parameter.type.Defined service)
    (extended : declaration.xtnds = some xtnds) :
    (∃ base, Extends wording.kind (.this service declaration) base) ∨
      declaration.Astray service wording.kind ∨
        Rejects (fun fuel => wording.check fuel service declaration) := by
  have rejects {message : JavaString} (fails : ∀ fuel,
      wording.checkExtends fuel (.this service declaration) xtnds =
        some (.error (.parseException message))) :
      Rejects (fun fuel => wording.check fuel service declaration) := by
    refine ⟨message, check_of_types types extended ?_⟩
    simp only [fails]
    exact .const _
  have unfolds (fuel : Nat) := checkExtends.eq_1 wording fuel
    (.this service declaration) xtnds
  have sameService : (Node.this service declaration).service = service := rfl
  cases found : service.get xtnds.name with
  | error thrown =>
      exact .inr (.inl (.target xtnds thrown types extended found))
  | ok result =>
      rw [sameService, found] at unfolds
      cases result with
      | none => exact .inr (.inr (rejects unfolds))
      | some entry =>
          cases ofKind : entry.named.isParamList wording.kind with
          | true =>
              obtain ⟨base, named⟩ := Named.isParamList_iff.mp ofKind
              obtain ⟨path, inner, entry⟩ := entry
              obtain rfl : entry = _ := named
              exact .inl ⟨⟨path, inner, base⟩, Node.extends_iff.mpr
                ⟨xtnds, path, extended, found, rfl⟩⟩
          | false =>
              have throws (fuel : Nat) : wording.checkExtends fuel
                  (.this service declaration) xtnds = some (.error
                    (wording.extendsText declaration xtnds
                      wording.notA)) := by
                rw [unfolds]
                show (if entry.named.isParamList wording.kind = true then _
                  else _) = _
                rw [ofKind, if_neg nofun]
                rfl
              exact .inr (.inr (rejects throws))

/-- Looking for a parameter that is not hidden gets to the end. -/
theorem hides_lacks {result : Except Thrown (Option (Parameter × Node))}
    (leads : ReflTransGen (Extends wording.kind) base last)
    (lacks : base.Lacks wording.kind parameter.name)
    (ends : Settles (fun fuel =>
      last.getParameter wording.kind fuel parameter.name) result) :
    Settles (fun fuel => (ExceptT.mk (base.getParameter wording.kind fuel
      parameter.name) : ExceptT Thrown Option (Option (Parameter × Node))))
        result :=
  Node.getParameter_lacks leads lacks ends

theorem hides_root (leads : ReflTransGen (Extends wording.kind) base last)
    (root : last.Root) (lacks : base.Lacks wording.kind parameter.name) :
    Settles (fun fuel =>
      wording.hides fuel declaration xtnds (some base) parameter)
        (.ok ()) :=
  (hides_lacks leads lacks (Node.getParameter_root root
    (lacks last leads))).bind (.const _)

theorem hides_dangling
    (leads : ReflTransGen (Extends wording.kind) base last)
    (dangling : last.Dangling wording.kind)
    (lacks : base.Lacks wording.kind parameter.name) :
    Settles (fun fuel =>
      wording.hides fuel declaration xtnds (some base) parameter)
        (.error .nullPointerException) :=
  (hides_lacks leads lacks (Node.getParameter_dangling dangling
    (lacks last leads))).bind_error

theorem hides_found (lacks : ¬base.Lacks wording.kind parameter.name) :
    Rejects (fun fuel =>
      wording.hides fuel declaration xtnds (some base) parameter) := by
  simp only [Node.Lacks, not_forall] at lacks
  obtain ⟨owner, leads, declares⟩ := lacks
  obtain ⟨hidden, holder, found⟩ := Node.getParameter_found leads declares
  have settles : Settles (fun fuel =>
      (ExceptT.mk (base.getParameter wording.kind fuel parameter.name) :
        ExceptT Thrown Option (Option (Parameter × Node))))
          (.ok (some (hidden, holder))) := found
  exact ⟨_, settles.bind (.const _)⟩

/-! ### The loop in the check of a declaration -/

section Loop

variable (parsed : Parsed service)
  (member : .paramList wording.kind declaration ∈ service.nameList)
include parsed member

theorem loop_of_end {result : Except Thrown Unit}
    (leads : ReflTransGen (Extends wording.kind)
      (.this service declaration) last)
    (ends : Chain.Last (Extends wording.kind) last)
    (returns : Loop.Returns
      (wording.round (.this service declaration) xtnds) (some last)
        result) :
    Settles (fun fuel => (ExceptT.mk (Loop.run
      (wording.round (.this service declaration) xtnds) fuel
        (some (.this service declaration))) : ExceptT Thrown Option Unit))
          result :=
  settles_of_returns (returns_of_end leads
    (Node.others_of_not_circle parsed member
      (Chain.not_circle (extends_unique _) leads ends)) returns)

theorem loop_ok
    (leads : ReflTransGen (Extends wording.kind)
      (.this service declaration) last)
    (ends : last.Root ∨ last.Dangling wording.kind) :
    Settles (fun fuel => (ExceptT.mk (Loop.run
      (wording.round (.this service declaration) xtnds) fuel
        (some (.this service declaration))) : ExceptT Thrown Option Unit))
          (.ok ()) := by
  rcases ends with root | dangling
  · exact loop_of_end parsed member leads root.isLast
      (.leave (round_root root))
  · exact loop_of_end parsed member leads dangling.isLast
      (.again (round_dangling dangling) (.leave rfl))

/-- Where the loop ends well, a check is about the parameters. -/
theorem check_of_extends {result : Except Thrown Unit}
    (types : ∀ parameter ∈ declaration.parameters,
      parameter.type.Defined service)
    (extended : declaration.xtnds = some xtnds)
    (step : Extends wording.kind (.this service declaration) base)
    (leads : ReflTransGen (Extends wording.kind) base last)
    (ends : last.Root ∨ last.Dangling wording.kind)
    (hides : Settles (fun fuel => (declaration.parameters.forM
      (wording.hides fuel declaration xtnds (some base)) :
        ExceptT Thrown Option Unit)) result) :
    Settles (fun fuel => wording.check fuel service declaration) result := by
  apply check_of_types types extended
  simp only [checkExtends_eq extended step]
  exact (loop_ok parsed member (.head step leads) ends).bind hides

/-- A declaration that passes is checked with success. -/
theorem check_passes (passes : declaration.Passes service wording.kind) :
    Settles (fun fuel => wording.check fuel service declaration)
      (.ok ()) := by
  cases extended : declaration.xtnds with
  | none =>
      unfold check
      rw [extended]
      exact (types_settle passes.types).bind (.const _)
  | some xtnds =>
      obtain ⟨base, step⟩ := passes.target (by rw [extended]; nofun)
      obtain ⟨last, leads, ends⟩ := passes.ending
      have ends' : last.Root ∨ last.Dangling wording.kind :=
        ends.imp_right And.left
      have leads' : ReflTransGen (Extends wording.kind) base last := by
        rcases leads.cases_head with rfl | ⟨next, step', rest⟩
        · rcases ends' with root | dangling
          · exact absurd step (root.isLast base)
          · exact absurd step (dangling.isLast base)
        · rwa [extends_unique _ step step']
      apply check_of_extends parsed member passes.types extended step leads'
        ends'
      rcases ends with root | ⟨dangling, none⟩
      · apply forM_settles_ok
        intro parameter inside
        exact hides_root leads' root fun owner leads =>
          passes.hides owner (.head' step leads) parameter inside
      · rw [none]
        exact .const _

/-- A declaration that is astray is not checked to an end that it may come
to. -/
theorem check_astray (astray : declaration.Astray service wording.kind) :
    GoesWrong (fun fuel => wording.check fuel service declaration) := by
  cases astray with
  | type before after parameter thrown parts types named fails =>
      refine .inr ⟨thrown, fun message same => ?_, ?_⟩
      · rw [same] at fails
        cases Service.get_error _ fails
      · unfold check
        rw [parts]
        apply Settles.bind_error
        apply forM_settles_error
        · intro other inside
          rw [TypeRef.check_ok (types other inside)]
          exact .const _
        · rw [TypeRef.check_get_error named fails]
          exact .const _
  | target xtnds thrown types extended fails =>
      refine .inr ⟨thrown, fun message same => ?_, ?_⟩
      · rw [same] at fails
        cases Service.get_error _ fails
      · apply check_of_types types extended
        unfold checkExtends
        have fails : (Node.this service declaration).service.get xtnds.name =
          .error thrown := fails
        rw [fails]
        exact .const _
  | faulty last thrown types leads faulty =>
      obtain ⟨base, step, rest⟩ := TransGen.head'_iff.mp leads
      obtain ⟨xtnds, _, extended, _⟩ := Node.extends_iff.mp step
      refine .inr ⟨thrown, fun message same => ?_, ?_⟩
      · subst same
        exact Node.Faulty.not_parseException faulty
      · apply check_of_types types extended
        simp only [checkExtends_eq extended step]
        exact (loop_of_end parsed member leads.to_reflTransGen faulty.isLast
          (.leave (round_faulty faulty))).bind_error
  | dangling last parameter rest types leads dangling parts lacks =>
      obtain ⟨base, step, leads'⟩ := TransGen.head'_iff.mp leads
      obtain ⟨xtnds, _, extended, _⟩ := Node.extends_iff.mp step
      refine .inr ⟨.nullPointerException, nofun, ?_⟩
      apply check_of_extends parsed member types extended step leads'
        (.inr dangling)
      rw [parts]
      exact (hides_dangling leads' dangling fun owner leads =>
        lacks owner (.head' step leads)).bind_error
  | circle base types leads circle apart =>
      obtain ⟨next, step, _⟩ := TransGen.head'_iff.mp leads
      obtain ⟨xtnds, _, extended, _⟩ := Node.extends_iff.mp step
      refine .inl (check_stalls_of_types types extended ?_)
      simp only [checkExtends_eq extended step]
      have diverges : Loop.Diverges
          (wording.round (.this service declaration) xtnds)
            (some (.this service declaration)) :=
        diverges_of_circle leads.to_reflTransGen circle
          (Node.others_of_not_circle parsed member apart)
      exact Stalls.bind ⟨0, fun fuel _ => diverges fuel⟩

/-- The first parameter that is hidden is rejected, if those before it are
looked for in vain. -/
theorem check_hides {before after : List Parameter}
    (types : ∀ parameter ∈ declaration.parameters,
      parameter.type.Defined service)
    (extended : declaration.xtnds = some xtnds)
    (step : Extends wording.kind (.this service declaration) base)
    (leads : ReflTransGen (Extends wording.kind) base last)
    (ends : last.Root ∨ last.Dangling wording.kind)
    (parts : declaration.parameters = before ++ parameter :: after)
    (shown : ∀ other ∈ before, last.Root ∧
      base.Lacks wording.kind other.name)
    (hidden : ¬base.Lacks wording.kind parameter.name) :
    Rejects (fun fuel => wording.check fuel service declaration) := by
  obtain ⟨message, rejects⟩ : Rejects fun fuel =>
    wording.hides fuel declaration xtnds (some base) parameter :=
      hides_found hidden
  refine ⟨message, check_of_extends parsed member types extended step leads
    ends ?_⟩
  rw [parts]
  apply forM_settles_error _ rejects
  intro other inside
  obtain ⟨root, lacks⟩ := shown other inside
  exact hides_root leads root lacks

omit parsed member in
/-- A chain that comes back to the declaration is rejected. -/
theorem check_loop
    (types : ∀ parameter ∈ declaration.parameters,
      parameter.type.Defined service)
    (extended : declaration.xtnds = some xtnds)
    (step : Extends wording.kind (.this service declaration) base)
    (circle : TransGen (Extends wording.kind) (.this service declaration)
      (.this service declaration)) :
    Rejects (fun fuel => wording.check fuel service declaration) := by
  have settles : Settles (fun fuel => wording.check fuel service declaration)
      (.error (wording.extendsText declaration xtnds
        (text "creates loop"))) := by
    apply check_of_types types extended
    simp only [checkExtends_eq extended step]
    have loop : Settles (fun fuel => (ExceptT.mk (Loop.run
        (wording.round (.this service declaration) xtnds) fuel
          (some (.this service declaration))) : ExceptT Thrown Option Unit))
        (.error (wording.extendsText declaration xtnds
          (text "creates loop"))) :=
      settles_of_returns (returns_of_loop circle (Node.same_self _))
    exact loop.bind_error
  exact ⟨_, settles⟩

/-- A declaration of defined types that extends one of its kind. -/
theorem extends_cases
    (types : ∀ parameter ∈ declaration.parameters,
      parameter.type.Defined service)
    (extended : declaration.xtnds = some xtnds)
    (step : Extends wording.kind (.this service declaration) base) :
    declaration.Passes service wording.kind ∨
      declaration.Astray service wording.kind ∨
        Rejects (fun fuel => wording.check fuel service declaration) := by
  rcases Node.ends_or_circles (Node.this_of member) with
    ⟨last, leads, isLast⟩ | ⟨other, leads, circle⟩
  · have leads' : ReflTransGen (Extends wording.kind) base last := by
      rcases leads.cases_head with rfl | ⟨next, step', rest⟩
      · exact absurd step (isLast base)
      · rwa [extends_unique _ step step']
    have shown (owner : Node) (behind : TransGen (Extends wording.kind)
        (.this service declaration) owner) :
        ReflTransGen (Extends wording.kind) base owner := by
      obtain ⟨next, step', rest⟩ := TransGen.head'_iff.mp behind
      rwa [extends_unique _ step step']
    rcases Node.last_cases isLast with root | dangling | ⟨thrown, faulty⟩
    · rcases all_or_first (fun parameter : Parameter =>
          base.Lacks wording.kind parameter.name) declaration.parameters with
        all | ⟨before, parameter, after, parts, lack, hidden⟩
      · exact .inl ⟨types, fun _ => ⟨base, step⟩, ⟨last, leads, .inl root⟩,
          fun owner behind parameter inside =>
            all parameter inside owner (shown owner behind)⟩
      · exact .inr (.inr (check_hides parsed member types extended step
          leads' (.inl root) parts (fun other inside =>
            ⟨root, lack other inside⟩) hidden))
    · cases parts : declaration.parameters with
      | nil =>
          refine .inl ⟨types, fun _ => ⟨base, step⟩,
            ⟨last, leads, .inr ⟨dangling, parts⟩⟩, fun _ _ _ inside => ?_⟩
          rw [parts] at inside
          cases inside
      | cons parameter rest =>
          by_cases lacks : base.Lacks wording.kind parameter.name
          · exact .inr (.inl (.dangling last parameter rest types
              (.head' step leads') dangling parts fun owner behind =>
                lacks owner (shown owner behind)))
          · have parts : declaration.parameters =
                [] ++ parameter :: rest := parts
            exact .inr (.inr (check_hides parsed member types extended step
              leads' (.inr dangling) parts (fun _ => nofun) lacks))
    · exact .inr (.inl (.faulty last thrown types (.head' step leads')
        faulty))
  · by_cases back : TransGen (Extends wording.kind)
        (.this service declaration) (.this service declaration)
    · exact .inr (.inr (check_loop types extended step back))
    · refine .inr (.inl (.circle other types ?_ circle back))
      exact TransGen.trans_right leads circle

/-- A check passes, goes astray or ends with a `ParseException`. -/
theorem check_cases :
    declaration.Passes service wording.kind ∨
      declaration.Astray service wording.kind ∨
        Rejects (fun fuel => wording.check fuel service declaration) := by
  rcases all_or_first (fun parameter : Parameter =>
      parameter.type.Defined service) declaration.parameters with
    types | ⟨before, parameter, after, parts, types, undefined⟩
  · cases extended : declaration.xtnds with
    | none =>
        have root : (Node.this service declaration).Root := extended
        have isLast : Chain.Last (Extends wording.kind) _ := root.isLast
        refine .inl ⟨types, fun some => absurd extended some,
          ⟨_, .refl, .inl root⟩, fun base leads => ?_⟩
        obtain ⟨next, step, _⟩ := TransGen.head'_iff.mp leads
        exact absurd step (isLast next)
    | some xtnds =>
        rcases target_cases types extended with
          ⟨base, step⟩ | astray | rejects
        · exact extends_cases parsed member types extended step
        · exact .inr (.inl astray)
        · exact .inr (.inr rejects)
  · rcases TypeRef.check_error undefined with
      ⟨message, rejects⟩ | ⟨thrown, named, fails⟩
    · refine .inr (.inr ⟨message, ?_⟩)
      unfold check
      rw [parts]
      apply Settles.bind_error
      apply forM_settles_error
      · intro other inside
        rw [TypeRef.check_ok (types other inside)]
        exact .const _
      · rw [rejects]
        exact .const _
    · exact .inr (.inl (.type before after parameter thrown parts types
        named fails))

end Loop

end Wording

/-! ## Services -/

/-- A thing that passes its check. -/
def Named.Passes (service : Service) : Named → Prop
  | paramList kind declaration => declaration.Passes service kind
  | other _ _ fault => fault = none
  | _ => True

def Named.Astray (service : Service) : Named → Prop
  | paramList kind declaration => declaration.Astray service kind
  | _ => False

namespace Named

variable {service : Service} {named : Named}

theorem check_passes (parsed : Parsed service)
    (member : named ∈ service.nameList) (passes : named.Passes service) :
    Settles (fun fuel => named.check fuel service) (.ok ()) := by
  cases named with
  | paramList kind declaration =>
      cases kind with
      | struct => exact Wording.check_passes parsed member passes
      | except => exact Wording.check_passes parsed member passes
  | other name fqname fault =>
      obtain rfl : fault = none := passes
      exact .const _
  | _ => exact .const _

theorem check_astray (parsed : Parsed service)
    (member : named ∈ service.nameList) (astray : named.Astray service) :
    GoesWrong (fun fuel => named.check fuel service) := by
  cases named with
  | paramList kind declaration =>
      cases kind with
      | struct => exact Wording.check_astray parsed member astray
      | except => exact Wording.check_astray parsed member astray
  | _ => exact astray.elim

theorem check_cases (parsed : Parsed service)
    (member : named ∈ service.nameList) :
    named.Passes service ∨ named.Astray service ∨
      Rejects (fun fuel => named.check fuel service) := by
  cases named with
  | paramList kind declaration =>
      cases kind with
      | struct => exact @Wording.check_cases Struct.wording _ _ parsed member
      | except => exact @Wording.check_cases Except.wording _ _ parsed member
  | other name fqname fault =>
      cases fault with
      | none => exact .inl rfl
      | some fault => exact .inr (.inr ⟨fault, .const _⟩)
  | _ => exact .inl trivial

end Named

/-- All that a declaration extends, up to one that extends nothing. -/
inductive Ancestry (kind : Kind) : Node → List Node → Prop where
  | root {node : Node} (root : node.Root) : Ancestry kind node []
  | base {node base : Node} {ancestors : List Node}
      (step : Extends kind node base)
      (declared : .paramList kind base.declaration ∈ base.service.nameList)
      (rest : Ancestry kind base ancestors) :
      Ancestry kind node (base :: ancestors)

namespace Service

variable {service inner : Service}

/-- Every chain of what is extended ends, and leads from one declaration of a
kind to another; no parameter hides one of an ancestor. -/
def Inherits (service : Service) : Prop :=
  ∀ kind declaration, .paramList kind declaration ∈ service.nameList →
    ∃ ancestors, Ancestry kind (.this service declaration) ancestors ∧
      ∀ base ∈ ancestors, ∀ parameter ∈ declaration.parameters,
        base.getOwnParameter parameter.name = none

/-- The check of a service rejects it, or the service inherits as it may. -/
def EndsWell (service : Service) : Prop :=
  Rejects (fun fuel => service.check fuel) ∨
    Settles (fun fuel => service.check fuel) (.ok ()) ∧ service.Inherits

theorem check_of_passes (parsed : Parsed service)
    (passes : ∀ named ∈ service.nameList, named.Passes service) :
    Settles (fun fuel => service.check fuel) (.ok ()) :=
  forM_settles_ok fun named member =>
    Named.check_passes parsed member (passes named member)

section First

variable {before after : List Named} {named : Named}
  (parsed : Parsed service)
  (parts : service.nameList = before ++ named :: after)
  (passes : ∀ other ∈ before, other.Passes service)
include parsed parts passes

/-- The first thing that does not pass decides. -/
theorem check_rejects (rejects : Rejects fun fuel =>
    named.check fuel service) :
    Rejects (fun fuel => service.check fuel) := by
  obtain ⟨message, settles⟩ := rejects
  refine ⟨message, ?_⟩
  unfold check
  rw [parts]
  apply forM_settles_error _ settles
  intro other inside
  refine Named.check_passes parsed ?_ (passes other inside)
  rw [parts]
  exact List.mem_append_left _ inside

theorem check_wrong (wrong : GoesWrong fun fuel =>
    named.check fuel service) :
    GoesWrong (fun fuel => service.check fuel) := by
  have settles (other : Named) (inside : other ∈ before) :
      Settles (fun fuel => other.check fuel service) (.ok ()) := by
    refine Named.check_passes parsed ?_ (passes other inside)
    rw [parts]
    exact List.mem_append_left _ inside
  unfold check
  rw [parts]
  rcases wrong with stalls | ⟨thrown, noParse, throws⟩
  · exact .inl (forM_stalls settles stalls)
  · exact .inr ⟨thrown, noParse, forM_settles_error settles throws⟩

end First

/-- A check that goes wrong ends in nothing else. -/
theorem not_endsWell (wrong : GoesWrong fun fuel => service.check fuel) :
    ¬service.EndsWell := by
  rintro (⟨message, rejects⟩ | ⟨succeeds, _⟩)
  · rcases wrong with stalls | ⟨thrown, noParse, throws⟩
    · exact rejects.not_stalls stalls
    · cases rejects.unique throws
      exact noParse message rfl
  · rcases wrong with stalls | ⟨thrown, noParse, throws⟩
    · exact succeeds.not_stalls stalls
    · cases succeeds.unique throws

/-- Everything passes in a service that has been checked with success. -/
theorem passes_of_check (parsed : Parsed service)
    (succeeds : Settles (fun fuel => service.check fuel) (.ok ())) :
    ∀ named ∈ service.nameList, named.Passes service := by
  rcases all_or_first (Named.Passes service) service.nameList with
    all | ⟨before, named, after, parts, passes, fails⟩
  · exact all
  · exfalso
    have member : named ∈ service.nameList := by
      rw [parts]
      exact List.mem_append_right _ (.head _)
    rcases Named.check_cases parsed member with passed | astray | rejects
    · exact fails passed
    · rcases check_wrong parsed parts passes
        (Named.check_astray parsed member astray) with
        stalls | ⟨thrown, _, throws⟩
      · exact succeeds.not_stalls stalls
      · cases succeeds.unique throws
    · obtain ⟨message, rejects⟩ := check_rejects parsed parts passes rejects
      cases succeeds.unique rejects

/-- So it does in all services that are mixed in. -/
theorem passes_of_within {path : List JavaString} (parsed : Parsed service)
    (passes : ∀ named ∈ service.nameList, named.Passes service)
    (within : Within service path inner) :
    ∀ named ∈ inner.nameList, named.Passes inner := by
  induction within with
  | here => exact passes
  | mixin declared _ ih =>
      cases parsed with
      | intro _ mixins checked =>
          have parsed := mixins _ _ declared
          exact ih parsed (passes_of_check parsed (checked _ _ declared))

/-- A chain to a declaration that extends nothing is an ancestry. -/
theorem ancestry_of_root {kind : Kind} {node last : Node}
    (of : node.Of kind service)
    (leads : ReflTransGen (Extends kind) node last) (root : last.Root) :
    ∃ ancestors, Ancestry kind node ancestors ∧
      ∀ base ∈ ancestors, TransGen (Extends kind) node base := by
  induction leads using ReflTransGen.head_induction_on with
  | refl => exact ⟨[], .root root, nofun⟩
  | @head node next step _ ih =>
      have of' := Node.of_extends of step
      obtain ⟨ancestors, ancestry, behind⟩ := ih of'
      refine ⟨next :: ancestors, .base step of'.2 ancestry, ?_⟩
      intro base member
      rcases List.mem_cons.mp member with rfl | member
      · exact .single step
      · exact .head step (behind base member)

/-- Where everything passes, services inherit as they may. -/
theorem inherits_of_passes (parsed : Parsed service)
    (passes : ∀ named ∈ service.nameList, named.Passes service) :
    service.Inherits := by
  intro kind declaration member
  have own : declaration.Passes service kind := passes _ member
  obtain ⟨last, leads, ends⟩ := own.ending
  have of := Node.of_extends_all (Node.this_of member) leads
  have root : last.Root := by
    rcases ends with root | ⟨dangling, _⟩
    · exact root
    · -- the declaration at the end has been checked in its own service
      exfalso
      have passed : last.declaration.Passes last.service kind :=
        passes_of_within parsed passes of.1 _ of.2
      obtain ⟨base, step⟩ := passed.target fun none => by
        have some := dangling.1
        rw [none] at some
        contradiction
      obtain ⟨xtnds, path, extended, found, _⟩ := Node.extends_iff.mp step
      exact dangling.isLast ⟨last.path ++ path, base.service,
        base.declaration⟩ (Node.extends_iff.mpr
          ⟨xtnds, path, extended, found, rfl⟩)
  obtain ⟨ancestors, ancestry, behind⟩ :=
    ancestry_of_root (Node.this_of member) leads root
  exact ⟨ancestors, ancestry, fun base inside parameter =>
    own.hides base (behind base inside) parameter⟩

/-- What passes does not go astray. -/
theorem not_astray_of_passes {named : Named} (parsed : Parsed service)
    (member : named ∈ service.nameList) (passes : named.Passes service) :
    ¬named.Astray service := by
  intro astray
  have succeeds := Named.check_passes parsed member passes
  rcases Named.check_astray parsed member astray with
    stalls | ⟨thrown, _, throws⟩
  · exact succeeds.not_stalls stalls
  · cases succeeds.unique throws

end Service

/-! ## Services that are checked in the wrong order -/

/-- `struct A(int x) extends B` -/
def declarationA : ParamList :=
  ⟨text "A", [⟨text "x", ⟨text "int", 1, true⟩⟩], some ⟨text "B", 1⟩⟩

/-- `struct B()`, which may extend something as well. -/
def declarationB (xtnds : Option Name) : ParamList :=
  ⟨text "B", [], xtnds⟩

/-- A service that declares `A` and `B` before a third thing. -/
def chained (xtnds : Option Name) (third : Named) : Service :=
  .mk (text "m") (text "S")
    [.paramList .struct declarationA,
      .paramList .struct (declarationB xtnds), third]

theorem chained_parsed (xtnds : Option Name) {third : Named}
    (name : third.name = text "C")
    (noMixin : ∀ name mixed, third ≠ .mixin name mixed) :
    Parsed (chained xtnds third) := by
  have declared {name : JavaString} {mixed : Service}
      (member : .mixin name mixed ∈ (chained xtnds third).nameList) :
      False := by
    simp only [chained, Service.nameList, List.mem_cons, reduceCtorEq,
      List.not_mem_nil, or_false, false_or] at member
    exact noMixin name mixed member.symm
  refine .intro ?_ (fun _ _ member => (declared member).elim)
    fun _ _ member => (declared member).elim
  show [text "A", text "B", third.name].Nodup
  rw [name]
  decide

theorem types_of_declarationA (service : Service) :
    ∀ parameter ∈ declarationA.parameters,
      parameter.type.Defined service := by
  intro parameter member
  obtain rfl := List.mem_singleton.mp member
  exact .inl rfl

/-- The check of a service ends no better than that of its first
declaration. -/
theorem not_endsWell_of_astray {xtnds : Option Name} {third : Named}
    (parsed : Parsed (chained xtnds third))
    (astray : declarationA.Astray (chained xtnds third) .struct) :
    ¬(chained xtnds third).EndsWell := by
  have parts : (chained xtnds third).nameList = [] ++
      .paramList .struct declarationA ::
        [.paramList .struct (declarationB xtnds), third] := rfl
  exact Service.not_endsWell (Service.check_wrong parsed parts nofun
    (Named.check_astray parsed (.head _) astray))

/-- `B` extends nothing. -/
def straight : Service :=
  chained none (.paramList .except ⟨text "C", [], none⟩)

/-- `B` and `C` extend each other: the check of `A` does not end. -/
def circling : Service :=
  chained (some ⟨text "C", 2⟩)
    (.paramList .struct ⟨text "C", [], some ⟨text "B", 3⟩⟩)

/-- `B` extends an exception: the check of `A` throws a
`ClassCastException`. -/
def mistaken : Service :=
  chained (some ⟨text "C", 2⟩) (.paramList .except ⟨text "C", [], none⟩)

/-- `B` extends what is not there: the check of `A` throws a
`NullPointerException`. -/
def unfounded : Service :=
  chained (some ⟨text "D", 2⟩) (.paramList .struct ⟨text "C", [], none⟩)

theorem circling_astray : declarationA.Astray circling .struct := by
  let b : Node := .this circling (declarationB (some ⟨text "C", 2⟩))
  let c : Node := .this circling ⟨text "C", [], some ⟨text "B", 3⟩⟩
  have a_b : Extends .struct (.this circling declarationA) b := rfl
  have b_c : Extends .struct b c := rfl
  have c_b : Extends .struct c b := rfl
  have circle : TransGen (Extends .struct) b b := .tail (.single b_c) c_b
  refine .circle b (types_of_declarationA _) (.single a_b) circle
    fun back => ?_
  have among (node : Node) (leads : ReflTransGen (Extends .struct) b node) :
      node = b ∨ node = c := by
    induction leads with
    | refl => exact .inl rfl
    | tail _ step ih =>
        rcases ih with rfl | rfl
        · exact .inr (extends_unique _ step b_c)
        · exact .inl (extends_unique _ step c_b)
  obtain ⟨next, step, rest⟩ := TransGen.head'_iff.mp back
  rw [extends_unique _ step a_b] at rest
  have names : declarationA.name = text "B" ∨
      declarationA.name = text "C" :=
    (among _ rest).imp (congrArg fun node : Node => node.declaration.name)
      (congrArg fun node : Node => node.declaration.name)
  revert names
  decide

theorem mistaken_astray : declarationA.Astray mistaken .struct := by
  have a_b : Extends .struct (.this mistaken declarationA)
    (.this mistaken (declarationB (some ⟨text "C", 2⟩))) := rfl
  exact .faulty _ .classCastException (types_of_declarationA _) (.single a_b)
    rfl

theorem unfounded_astray : declarationA.Astray unfounded .struct := by
  let b : Node := .this unfounded (declarationB (some ⟨text "D", 2⟩))
  have a_b : Extends .struct (.this unfounded declarationA) b := rfl
  have dangling : b.Dangling .struct := ⟨rfl, rfl⟩
  refine .dangling b _ [] (types_of_declarationA _) (.single a_b) dangling
    rfl fun base leads => ?_
  obtain ⟨next, step, rest⟩ := TransGen.head'_iff.mp leads
  rw [extends_unique _ step a_b] at rest
  rcases rest.cases_head with rfl | ⟨other, step, _⟩
  · rfl
  · exact absurd step (dangling.isLast other)

end Etch.Compiler
