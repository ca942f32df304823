import Etch.Compiler.Service
import Etch.Library.Chain
import Mathlib.Data.Set.Finite.List

/-!
# How names of a service are resolved

What is found under a name is declared by the service, or by one that is mixed
in.  There are finitely many of these, so that the chain of what a declaration
extends ends or runs into a circle.
-/

namespace Etch.Compiler

open Etch.Java Etch.Library

/-- A service is reached by way of the mixins on a path. -/
inductive Within : Service → List JavaString → Service → Prop where
  | here (service : Service) : Within service [] service
  | mixin {service mixed inner : Service} {name : JavaString}
      {path : List JavaString}
      (declared : .mixin name mixed ∈ service.nameList)
      (rest : Within mixed path inner) : Within service (name :: path) inner

namespace Within

variable {service middle inner : Service} {path path' : List JavaString}

theorem trans (first : Within service path middle)
    (second : Within middle path' inner) :
    Within service (path ++ path') inner := by
  induction first with
  | here => exact second
  | mixin declared _ ih => exact .mixin declared (ih second)

theorem eq_of_nil (within : Within service [] inner) : inner = service := by
  cases within
  rfl

end Within

/-- An entry names something that a service declares, or one mixed in. -/
def Entry.Of (service : Service) (entry : Entry) : Prop :=
  Within service entry.path entry.service ∧
    entry.named ∈ entry.service.nameList

namespace Service

theorem named_of {service : Service} {name : JavaString} {entry : Entry}
    (found : service.named name = some entry) : entry.Of service := by
  obtain ⟨named, first, rfl⟩ := Option.map_eq_some_iff.mp found
  exact ⟨.here service, List.mem_of_find?_eq_some first⟩

theorem own_of {service : Service} {name : JavaString} {entry : Entry}
    (member : entry ∈ service.own name) : entry.Of service := by
  rcases List.mem_append.mp member with simple | qualified
  · exact named_of (Option.mem_toList.mp simple)
  · split at qualified
    · exact named_of (Option.mem_toList.mp (List.mem_filter.mp qualified).1)
    · contradiction

mutual

/-- What is found is declared. -/
theorem get_of : ∀ (service : Service) {name : JavaString} {entry : Entry},
    service.get name = .ok (some entry) → entry.Of service
  | .mk moduleName name nameList, wanted, entry, found => by
      simp only [get] at found
      cases mixed : mixedIn nameList wanted
          ((mk moduleName name nameList).own wanted) with
      | error thrown =>
          rw [mixed] at found
          contradiction
      | ok list =>
          have all := mixedIn_of nameList (mk moduleName name nameList)
            (List.Subset.refl _) (fun _ => own_of) mixed
          rw [mixed] at found
          simp only [bind, Except.bind] at found
          split at found
          · cases found
            exact all _ (.head _)
          · cases found

theorem mixedIn_of : ∀ (rest : List Named) (service : Service)
    {wanted : JavaString} {list final : List Entry},
    rest ⊆ service.nameList → (∀ entry ∈ list, entry.Of service) →
      mixedIn rest wanted list = .ok final →
        ∀ entry ∈ final, entry.Of service
  | [], service, wanted, list, final, _, all, done => by
      cases done
      exact all
  | named :: rest, service, wanted, list, final, inside, all, done => by
      have inside' := List.subset_of_cons_subset inside
      cases named with
      | mixin name mixed =>
          simp only [mixedIn] at done
          cases found : mixed.get wanted with
          | error thrown =>
              rw [found] at done
              cases done
          | ok result =>
              rw [found] at done
              cases result with
              | none => exact mixedIn_of rest service inside' all done
              | some entry =>
                  have inner := get_of mixed found
                  cases known : hasFqname list entry with
                  | error thrown => simp [known, bind, Except.bind] at done
                  | ok exist =>
                      simp only [known, bind, Except.bind] at done
                      split at done
                      · exact mixedIn_of rest service inside' all done
                      · refine mixedIn_of rest service inside' ?_ done
                        intro other member
                        rcases List.mem_append.mp member with old | new
                        · exact all other old
                        · obtain rfl := List.mem_singleton.mp new
                          exact ⟨.mixin (inside (.head _)) inner.1, inner.2⟩
      | _ => exact mixedIn_of rest service inside' all done

end

theorem hasFqname_error {list : List Entry} {entry : Entry}
    {thrown : Thrown} (fails : hasFqname list entry = .error thrown) :
    thrown = .nullPointerException := by
  unfold hasFqname at fails
  generalize false = found at fails
  induction list generalizing found with
  | nil => cases fails
  | cons other list ih =>
      rw [List.foldlM_cons] at fails
      cases fqname : other.fqname with
      | none =>
          rw [fqname] at fails
          cases fails
          rfl
      | some fqname' =>
          rw [fqname] at fails
          exact ih _ fails

mutual

/-- What goes wrong with a name is that a thing without a fully qualified name
has been asked for it. -/
theorem get_error : ∀ (service : Service) {name : JavaString}
    {thrown : Thrown}, service.get name = .error thrown →
      thrown = .nullPointerException
  | .mk moduleName name nameList, wanted, thrown, fails => by
      simp only [get] at fails
      cases mixed : mixedIn nameList wanted
          ((mk moduleName name nameList).own wanted) with
      | error thrown' =>
          rw [mixed] at fails
          cases fails
          exact mixedIn_error nameList mixed
      | ok list =>
          rw [mixed] at fails
          simp only [bind, Except.bind] at fails
          split at fails
          · cases fails
          · cases fails

theorem mixedIn_error : ∀ (rest : List Named) {wanted : JavaString}
    {list : List Entry} {thrown : Thrown},
      mixedIn rest wanted list = .error thrown →
        thrown = .nullPointerException
  | [], _, _, _, fails => by cases fails
  | named :: rest, wanted, list, thrown, fails => by
      cases named with
      | mixin name mixed =>
          simp only [mixedIn] at fails
          cases found : mixed.get wanted with
          | error thrown' =>
              rw [found] at fails
              cases fails
              exact get_error mixed found
          | ok result =>
              rw [found] at fails
              cases result with
              | none => exact mixedIn_error rest fails
              | some entry =>
                  cases known : hasFqname list entry with
                  | error thrown' =>
                      simp only [known, bind, Except.bind] at fails
                      cases fails
                      exact hasFqname_error known
                  | ok exist =>
                      simp only [known, bind, Except.bind] at fails
                      split at fails
                      · exact mixedIn_error rest fails
                      · exact mixedIn_error rest fails
      | _ => exact mixedIn_error rest fails

end

mutual

/-- Finitely many services are mixed in. -/
theorem finite_within : ∀ service : Service,
    {place : List JavaString × Service |
      Within service place.1 place.2}.Finite
  | .mk moduleName name nameList => by
      refine ((finite_mixedIn nameList).union
        (Set.finite_singleton ([], mk moduleName name nameList))).subset ?_
      rintro ⟨path, inner⟩ within
      cases within with
      | here => exact .inr rfl
      | @mixin _ mixed _ name path declared rest =>
          exact .inl ⟨name, mixed, declared, path, rest, rfl⟩

theorem finite_mixedIn : ∀ rest : List Named,
    {place : List JavaString × Service | ∃ name mixed,
      Named.mixin name mixed ∈ rest ∧ ∃ path,
        Within mixed path place.2 ∧ place.1 = name :: path}.Finite
  | [] => by
      refine Set.finite_empty.subset ?_
      rintro place ⟨_, _, member, _⟩
      cases member
  | named :: rest => by
      cases named with
      | mixin name mixed =>
          refine (((finite_within mixed).image fun place =>
            (name :: place.1, place.2)).union (finite_mixedIn rest)).subset ?_
          rintro ⟨path, inner⟩ ⟨name', mixed', member, path', within, rfl⟩
          rcases List.mem_cons.mp member with same | member
          · cases same
            exact .inl ⟨(path', inner), within, rfl⟩
          · exact .inr ⟨name', mixed', member, path', within, rfl⟩
      | _ =>
          refine (finite_mixedIn rest).subset ?_
          rintro place ⟨name', mixed', member, path', within, same⟩
          rcases List.mem_cons.mp member with same' | member
          · cases same'
          · exact ⟨name', mixed', member, path', within, same⟩

end

end Service

/-! ## What a declaration extends -/

/-- A declaration extends another one. -/
def Extends (kind : Kind) (node base : Node) : Prop :=
  node.getExtends kind = .ok (some base)

theorem extends_unique (kind : Kind) : Relator.RightUnique (Extends kind) := by
  intro node base other first second
  have same := first.symm.trans second
  exact Option.some.inj (Except.ok.inj same)

/-- A node that stands for a declaration of a service, or of one mixed in. -/
def Node.Of (kind : Kind) (service : Service) (node : Node) : Prop :=
  Within service node.path node.service ∧
    .paramList kind node.declaration ∈ node.service.nameList

namespace Node

variable {kind : Kind} {service : Service} {node base : Node}

/-- The node of a declaration in the service that is checked. -/
def this (service : Service) (declaration : ParamList) : Node :=
  ⟨[], service, declaration⟩

theorem this_of {declaration : ParamList}
    (member : .paramList kind declaration ∈ service.nameList) :
    (this service declaration).Of kind service :=
  ⟨.here service, member⟩

/-- What is extended has been found under its name. -/
theorem extends_iff :
    Extends kind node base ↔
      ∃ xtnds path, node.declaration.xtnds = some xtnds ∧
        node.service.get xtnds.name = .ok (some ⟨path, base.service,
          .paramList kind base.declaration⟩) ∧
        base.path = node.path ++ path := by
  unfold Extends getExtends
  constructor
  · intro extended
    split at extended
    · cases extended
    next xtnds some =>
      cases found : node.service.get xtnds.name with
      | error thrown =>
          rw [found] at extended
          cases extended
      | ok result =>
          rw [found] at extended
          simp only [bind, Except.bind] at extended
          split at extended
          · cases extended
          · split at extended
            next same =>
              subst same
              cases extended
              exact ⟨xtnds, _, some, found, rfl⟩
            · cases extended
          · cases extended
  · rintro ⟨xtnds, path, some, found, samePath⟩
    rw [some]
    simp only [found, bind, Except.bind, if_pos, ← samePath]
    rfl

theorem of_extends (of : node.Of kind service)
    (extended : Extends kind node base) : base.Of kind service := by
  obtain ⟨xtnds, path, _, found, samePath⟩ := extends_iff.mp extended
  obtain ⟨within, member⟩ := Service.get_of _ found
  exact ⟨samePath ▸ of.1.trans within, member⟩

theorem of_extends_all (of : node.Of kind service)
    (leads : Relation.ReflTransGen (Extends kind) node base) :
    base.Of kind service := by
  induction leads with
  | refl => exact of
  | tail _ step ih => exact of_extends ih step

theorem finite_of (kind : Kind) (service : Service) :
    {node : Node | node.Of kind service}.Finite := by
  have places := Set.Finite.biUnion (Service.finite_within service)
    fun place _ => (List.finite_toSet place.2.nameList).image
      fun named => (place, named)
  refine (places.subset ?_).of_finite_image
    (f := fun node : Node => ((node.path, node.service),
      Named.paramList kind node.declaration)) ?_
  · rintro _ ⟨node, of, rfl⟩
    exact Set.mem_biUnion of.1 ⟨_, of.2, rfl⟩
  · rintro ⟨path, inner, declaration⟩ _ ⟨path', inner', declaration'⟩ _ same
    cases same
    rfl

/-- What a declaration extends ends, or runs into a circle. -/
theorem ends_or_circles (of : node.Of kind service) :
    (∃ last, Relation.ReflTransGen (Extends kind) node last ∧
      Chain.Last (Extends kind) last) ∨
      ∃ base, Relation.ReflTransGen (Extends kind) node base ∧
        Relation.TransGen (Extends kind) base base :=
  Chain.ends_or_circles ((finite_of kind service).subset fun _ leads =>
    of_extends_all of leads)

end Node

end Etch.Compiler
