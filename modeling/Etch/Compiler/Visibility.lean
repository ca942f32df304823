import Etch.Compiler.Resolution

/-!
# What a name of a service can mean

A declaration is visible in the service that makes it and in every service
that mixes this one in.  The code lets each service reduce what it sees to one
declaration or to none before the services above it look.  This loses an
ambiguity, and it asks constants for a name that they do not have.
-/

namespace Etch.Compiler

open Etch.Java

/-! ## Declarations that are visible -/

/-- What tells declarations apart: the module, the service and the name, or
what a builtin thing is bound to, which is the same in all services. -/
inductive Identity where
  | declared (moduleName service name : JavaString)
  | builtin (bindingName : JavaString)
deriving DecidableEq

def Service.moduleName : Service → JavaString
  | mk moduleName _ _ => moduleName

def Service.name : Service → JavaString
  | mk _ name _ => name

namespace Entry

def identity (entry : Entry) : Identity :=
  match entry.named with
  | .builtin _ bindingName => .builtin bindingName
  | named => .declared entry.service.moduleName entry.service.name named.name

/-- The entry as a service sees it that mixes the entry's service in. -/
def via (name : JavaString) (entry : Entry) : Entry :=
  { entry with path := name :: entry.path }

end Entry

namespace Service

mutual

/-- What a service and, transitively, its mixins have under a name. -/
def visible : Service → JavaString → List Entry
  | mk moduleName name nameList, wanted =>
      (mk moduleName name nameList).own wanted ++ visibleIn nameList wanted

def visibleIn : List Named → JavaString → List Entry
  | [], _ => []
  | .mixin name service :: rest, wanted =>
      (service.visible wanted).map (Entry.via name) ++ visibleIn rest wanted
  | _ :: rest, wanted => visibleIn rest wanted

end

/-- All entries stand for one declaration. -/
def Sole (entries : List Entry) : Prop :=
  ∃ first rest, entries = first :: rest ∧
    ∀ entry ∈ rest, entry.identity = first.identity

/-- The first entry, if all stand for one declaration. -/
def only : List Entry → Option Entry
  | [] => none
  | first :: rest =>
      if ∀ entry ∈ rest, entry.identity = first.identity then some first
      else none

/-- What the mixins among the declarations see as the only declaration. -/
def offers : List Named → JavaString → List Entry
  | [], _ => []
  | .mixin name service :: rest, wanted =>
      ((only (service.visible wanted)).map (Entry.via name)).toList ++
        offers rest wanted
  | _ :: rest, wanted => offers rest wanted

/-- One thing is left of what a service has itself and of what its mixins
offer, when the offers are dropped that have a qualified name which is there
already. -/
def Lone (own offers : List Entry) : Prop :=
  own.length ≤ 1 ∧ ∃ first rest, own ++ offers = first :: rest ∧
    ∀ entry ∈ rest, entry.fqname = first.fqname

/-- A name is resolved exactly: nothing is thrown, and what is found is the
only declaration that is visible. -/
def Exact (service : Service) (wanted : JavaString) : Prop :=
  ∃ result, service.get wanted = .ok result ∧
    ∀ identity, (∃ entry, result = some entry ∧
        entry.identity = identity) ↔
      (∃ entry ∈ service.visible wanted, entry.identity = identity) ∧
        ∀ entry ∈ service.visible wanted, entry.identity = identity

/-- A service in which a name is clear. -/
structure Clear (service : Service) (wanted : JavaString) : Prop where
  /-- Only the last offer of a mixin may be a constant, and the service has
  none itself if there is an offer. -/
  named : offers service.nameList wanted ≠ [] →
    ∀ entry ∈ service.own wanted ++
      (offers service.nameList wanted).dropLast,
      entry.fqname.isSome = true
  /-- One thing is left if and only if no other one is visible. -/
  lone : Lone (service.own wanted) (offers service.nameList wanted) ↔
    Sole (service.visible wanted)

/-! ## How the offers are merged -/

/-- Add what mixins offer to a list. -/
def merge (list : List Entry) :
    List Entry → Except Thrown (List Entry)
  | [] => .ok list
  | entry :: rest => do
      if ← hasFqname list entry then
        merge list rest
      else
        merge (list ++ [entry]) rest

theorem hasFqname_from {list : List Entry} {entry : Entry}
    (named : ∀ other ∈ list, other.fqname.isSome = true) (found : Bool) :
    list.foldlM
      (fun found other =>
        match other.fqname with
        | none => Except.error Thrown.nullPointerException
        | some fqname => .ok (found || entry.fqname == some fqname)) found =
      .ok (found || list.any fun other => entry.fqname == other.fqname) := by
  induction list generalizing found with
  | nil =>
      rw [List.any_nil, Bool.or_false]
      rfl
  | cons other list ih =>
      obtain ⟨fqname, is⟩ := Option.isSome_iff_exists.mp
        (named other List.mem_cons_self)
      rw [List.foldlM_cons, is, List.any_cons, is, ← Bool.or_assoc]
      exact ih (fun next member =>
        named next (List.mem_cons_of_mem _ member)) _

theorem hasFqname_ok {list : List Entry} {entry : Entry}
    (named : ∀ other ∈ list, other.fqname.isSome = true) :
    hasFqname list entry =
      .ok (list.any fun other => entry.fqname == other.fqname) :=
  hasFqname_from named false

theorem hasFqname_none {list : List Entry} {entry other : Entry}
    (member : other ∈ list) (unnamed : other.fqname = none) :
    hasFqname list entry = .error .nullPointerException := by
  unfold hasFqname
  generalize false = found
  induction list generalizing found with
  | nil => cases member
  | cons first list ih =>
      rw [List.foldlM_cons]
      cases fqname : first.fqname with
      | none => rfl
      | some fqname =>
          rcases List.mem_cons.mp member with rfl | later
          · rw [unnamed] at fqname
            cases fqname
          · exact ih later _

/-- Nothing is thrown if everything has a name that is compared with. -/
theorem merge_ok_iff {list offers : List Entry} :
    (∃ final, merge list offers = .ok final) ↔
      (offers ≠ [] → ∀ entry ∈ list ++ offers.dropLast,
        entry.fqname.isSome = true) := by
  induction offers generalizing list with
  | nil => exact iff_of_true ⟨list, rfl⟩ (absurd rfl)
  | cons entry rest ih =>
      rw [merge]
      by_cases named : ∀ other ∈ list, other.fqname.isSome = true
      · rw [hasFqname_ok named, Etch.Library.Fallible.ok_bind]
        cases rest with
        | nil =>
            refine iff_of_true ?_ fun _ other member =>
              named other (by simpa using member)
            split_ifs <;> exact ⟨_, rfl⟩
        | cons next rest =>
            rw [List.dropLast_cons_of_ne_nil (List.cons_ne_nil _ _),
              imp_iff_right (List.cons_ne_nil _ _)]
            split_ifs with known
            · obtain ⟨other, member, same⟩ := List.any_eq_true.mp known
              have some := named other member
              rw [← eq_of_beq same] at some
              rw [ih, imp_iff_right (List.cons_ne_nil _ _)]
              simp [or_imp, forall_and, some]
            · rw [ih, imp_iff_right (List.cons_ne_nil _ _),
                List.append_assoc, List.singleton_append]
      · push Not at named
        obtain ⟨other, member, unnamed⟩ := named
        have none : other.fqname = none := by simpa using unnamed
        rw [hasFqname_none member none]
        refine iff_of_false nofun fun all => ?_
        have some := all (List.cons_ne_nil _ _) other
          (List.mem_append_left _ member)
        rw [none] at some
        cases some

theorem prefix_of_merge {list offers final : List Entry}
    (merged : merge list offers = .ok final) : list <+: final := by
  induction offers generalizing list with
  | nil =>
      cases merged
      exact List.prefix_rfl
  | cons entry rest ih =>
      obtain ⟨known, asked, merged⟩ :=
        Etch.Library.Fallible.bind_eq_ok_iff.mp merged
      cases known with
      | true => exact ih merged
      | false => exact (List.prefix_append ..).trans (ih merged)

/-- One thing remains alone if the offers all have its name. -/
theorem merge_single_iff {first : Entry} {offers final : List Entry}
    (merged : merge [first] offers = .ok final) :
    final = [first] ↔ ∀ entry ∈ offers, entry.fqname = first.fqname := by
  induction offers with
  | nil =>
      cases merged
      exact iff_of_true rfl nofun
  | cons entry rest ih =>
      obtain ⟨known, asked, rest'⟩ :=
        Etch.Library.Fallible.bind_eq_ok_iff.mp merged
      have named := merge_ok_iff.mp ⟨final, merged⟩ (List.cons_ne_nil _ _)
        first (List.mem_append_left _ List.mem_cons_self)
      rw [hasFqname_ok (by simpa using named)] at asked
      have same : known = true ↔ entry.fqname = first.fqname := by
        rw [← Except.ok.inj asked]
        simp
      cases known with
      | true =>
          rw [ih rest', List.forall_mem_cons]
          exact (and_iff_right (same.mp rfl)).symm
      | false =>
          refine iff_of_false ?_ fun all => ?_
          · rintro rfl
            have longer := (prefix_of_merge rest').length_le
            simp at longer
          · exact absurd (same.mpr (all entry List.mem_cons_self)) nofun

/-! ## Services whose mixins resolve a name exactly -/

variable {wanted : JavaString}

theorem only_eq_some_iff {entries : List Entry} {entry : Entry} :
    only entries = some entry ↔
      entries.head? = some entry ∧ Sole entries := by
  cases entries with
  | nil => simp [only, Sole]
  | cons first rest =>
      have sole : Sole (first :: rest) ↔
          ∀ entry ∈ rest, entry.identity = first.identity := by
        constructor
        · rintro ⟨_, _, same, all⟩
          cases same
          exact all
        · exact fun all => ⟨first, rest, rfl, all⟩
      rw [only, sole]
      split_ifs with all
      · exact (and_iff_left all).symm
      · exact iff_of_false nofun fun both => all both.2

/-- The mixins among some declarations resolve a name as they should. -/
def Resolves (rest : List Named) (wanted : JavaString) : Prop :=
  ∀ name mixed, .mixin name mixed ∈ rest →
    mixed.get wanted = .ok (only (mixed.visible wanted))

theorem mixedIn_eq {rest : List Named} (resolves : Resolves rest wanted)
    (list : List Entry) :
    mixedIn rest wanted list = merge list (offers rest wanted) := by
  induction rest generalizing list with
  | nil => rfl
  | cons named rest ih =>
      have resolves' : Resolves rest wanted := fun name mixed member =>
        resolves name mixed (List.mem_cons_of_mem _ member)
      cases named with
      | mixin name mixed =>
          have found := resolves name mixed List.mem_cons_self
          rw [mixedIn, found, offers, Etch.Library.Fallible.ok_bind]
          cases sole : only (mixed.visible wanted) with
          | none => exact ih resolves' list
          | some entry =>
              change _ = merge list (entry.via name :: offers rest wanted)
              rw [merge]
              change (do
                if ← hasFqname list (entry.via name) then
                  mixedIn rest wanted list
                else mixedIn rest wanted (list ++ [entry.via name])) = _
              simp only [ih resolves']
      | _ => exact ih resolves' list

/-- The first offer is what is visible first, if all that is visible is one
declaration. -/
theorem head?_offers {rest : List Named} {identity : Identity}
    (all : ∀ entry ∈ visibleIn rest wanted, entry.identity = identity) :
    (offers rest wanted).head? = (visibleIn rest wanted).head? := by
  induction rest with
  | nil => rfl
  | cons named rest ih =>
      cases named with
      | mixin name mixed =>
          rw [visibleIn] at all ⊢
          rw [offers]
          cases seen : mixed.visible wanted with
          | nil =>
              rw [seen] at all
              exact ih all
          | cons first others =>
              have sole : only (first :: others) = some first := by
                refine if_pos fun entry member => ?_
                rw [seen] at all
                have one := all (first.via name)
                  (List.mem_append_left _ List.mem_cons_self)
                have other := all (entry.via name)
                  (List.mem_append_left _ (List.mem_map_of_mem
                    (List.mem_cons_of_mem _ member)))
                exact other.trans one.symm
              rw [sole]
              rfl
      | _ => exact ih all

theorem visible_eq (service : Service) :
    service.visible wanted =
      service.own wanted ++ visibleIn service.nameList wanted := by
  cases service with
  | mk moduleName name nameList => rfl

theorem get_eq {service : Service}
    (resolves : Resolves service.nameList wanted) :
    service.get wanted = (do
      let list ← merge (service.own wanted)
        (offers service.nameList wanted)
      match list with
      | [entry] => return some entry
      | _ => return none) := by
  cases service with
  | mk moduleName name nameList =>
      change Resolves nameList wanted at resolves
      rw [get, mixedIn_eq resolves]
      rfl

theorem head_of_merge {first entry : Entry} {list offers : List Entry}
    (merged : merge (first :: list) offers = .ok [entry]) :
    first = entry ∧ list = [] := by
  obtain ⟨more, equal⟩ := prefix_of_merge merged
  rw [List.cons_append] at equal
  obtain ⟨same, none⟩ := List.cons.inj equal
  exact ⟨same, (List.append_eq_nil_iff.mp none).1⟩

/-- The list has one thing in it at the end if and only if one is left, the
first one. -/
theorem merge_lone_iff {own offers final : List Entry}
    (merged : merge own offers = .ok final) (entry : Entry) :
    final = [entry] ↔
      (own ++ offers).head? = some entry ∧ Lone own offers := by
  have single {first : Entry} {rest : List Entry}
      (merged : merge [first] rest = .ok final) :
      final = [entry] ↔ first = entry ∧
        ∀ other ∈ rest, other.fqname = first.fqname := by
    rw [← merge_single_iff merged]
    constructor
    · rintro rfl
      have same := (head_of_merge merged).1
      exact ⟨same, by rw [same]⟩
    · rintro ⟨rfl, alone⟩
      exact alone
  have lone {first : Entry} {own offers rest : List Entry}
      (few : own.length ≤ 1) (parts : own ++ offers = first :: rest) :
      (own ++ offers).head? = some entry ∧ Lone own offers ↔
        first = entry ∧ ∀ other ∈ rest, other.fqname = first.fqname := by
    rw [parts, List.head?_cons, Option.some_inj]
    refine and_congr_right fun _ => ⟨?_, fun all =>
      ⟨few, first, rest, parts, all⟩⟩
    rintro ⟨-, _, _, same, all⟩
    obtain ⟨rfl, rfl⟩ := List.cons.inj (parts.symm.trans same)
    exact all
  match own, offers, merged with
  | [], [], merged =>
      cases merged
      exact iff_of_false nofun nofun
  | [], first :: rest, merged =>
      rw [lone (Nat.zero_le _) rfl]
      exact single merged
  | [first], offers, merged =>
      rw [lone (Nat.le_refl _) rfl]
      exact single merged
  | first :: second :: own, offers, merged =>
      refine iff_of_false ?_ fun both => ?_
      · rintro rfl
        cases (head_of_merge merged).2
      · have few := both.2.1
        simp at few

/-! ## Where the resolution is exact -/

variable {service : Service}

theorem sole_iff {entries : List Entry} :
    Sole entries ↔ ∃ identity,
      (∃ entry ∈ entries, entry.identity = identity) ∧
        ∀ entry ∈ entries, entry.identity = identity := by
  constructor
  · rintro ⟨first, rest, rfl, all⟩
    exact ⟨first.identity, ⟨first, List.mem_cons_self, rfl⟩,
      List.forall_mem_cons.mpr ⟨rfl, all⟩⟩
  · rintro ⟨identity, ⟨entry, member, -⟩, all⟩
    obtain ⟨first, rest, rfl⟩ :=
      List.exists_cons_of_ne_nil (List.ne_nil_of_mem member)
    obtain ⟨one, others⟩ := List.forall_mem_cons.mp all
    exact ⟨first, rest, rfl, fun other inside =>
      (others other inside).trans one.symm⟩

/-- What is left first is visible first, if one declaration is visible. -/
theorem head?_visible (sole : Sole (service.visible wanted)) :
    (service.own wanted ++ offers service.nameList wanted).head? =
      (service.visible wanted).head? := by
  obtain ⟨identity, -, all⟩ := sole_iff.mp sole
  rw [visible_eq] at all ⊢
  rw [List.head?_append, List.head?_append,
    head?_offers fun entry member =>
      all entry (List.mem_append_right _ member)]

theorem exact_of_get
    (found : service.get wanted = .ok (only (service.visible wanted))) :
    Exact service wanted := by
  refine ⟨_, found, fun identity => ?_⟩
  constructor
  · rintro ⟨entry, sole, rfl⟩
    obtain ⟨head, first, rest, parts, all⟩ := only_eq_some_iff.mp sole
    rw [parts] at head ⊢
    obtain rfl := Option.some.inj head
    exact ⟨⟨first, List.mem_cons_self, rfl⟩,
      List.forall_mem_cons.mpr ⟨rfl, all⟩⟩
  · intro one
    obtain ⟨first, rest, parts, all⟩ := sole_iff.mpr ⟨identity, one⟩
    refine ⟨first, only_eq_some_iff.mpr
      ⟨by rw [parts]; rfl, first, rest, parts, all⟩, ?_⟩
    exact one.2 first (by rw [parts]; exact List.mem_cons_self)

/-- What a service finds, where its mixins resolve the name as they should and
nothing is asked for a name that it does not have. -/
theorem get_of_named (resolves : Resolves service.nameList wanted)
    (named : offers service.nameList wanted ≠ [] →
      ∀ entry ∈ service.own wanted ++
        (offers service.nameList wanted).dropLast,
        entry.fqname.isSome = true) :
    ∃ result, service.get wanted = .ok result ∧
      ∀ entry, result = some entry ↔
        (service.own wanted ++ offers service.nameList wanted).head? =
            some entry ∧
          Lone (service.own wanted) (offers service.nameList wanted) := by
  obtain ⟨final, merged⟩ := merge_ok_iff.mpr named
  have lone := merge_lone_iff merged
  rw [get_eq resolves, merged, Etch.Library.Fallible.ok_bind]
  match final with
  | [] => exact ⟨none, rfl, fun entry => (iff_of_false nofun nofun).trans
      (lone entry)⟩
  | [first] =>
      refine ⟨some first, rfl, fun entry => ?_⟩
      rw [← lone entry]
      simp
  | first :: second :: rest =>
      exact ⟨none, rfl, fun entry => (iff_of_false nofun nofun).trans
        (lone entry)⟩

theorem named_of_get (resolves : Resolves service.nameList wanted)
    {result : Option Entry} (found : service.get wanted = .ok result) :
    offers service.nameList wanted ≠ [] →
      ∀ entry ∈ service.own wanted ++
        (offers service.nameList wanted).dropLast,
        entry.fqname.isSome = true := by
  rw [get_eq resolves] at found
  obtain ⟨final, merged, -⟩ :=
    Etch.Library.Fallible.bind_eq_ok_iff.mp found
  exact merge_ok_iff.mp ⟨final, merged⟩

/-- A service in which the name is clear finds the only declaration that is
visible. -/
theorem get_of_clear (resolves : Resolves service.nameList wanted)
    (clear : Clear service wanted) :
    service.get wanted = .ok (only (service.visible wanted)) := by
  obtain ⟨result, found, spec⟩ := get_of_named resolves clear.named
  rw [found]
  congr 1
  ext entry
  rw [spec, only_eq_some_iff, clear.lone]
  refine and_congr_left fun sole => ?_
  rw [head?_visible sole]

theorem clear_of_exact (resolves : Resolves service.nameList wanted)
    (exact : Exact service wanted) : Clear service wanted := by
  obtain ⟨result, found, sole⟩ := exact
  have named := named_of_get resolves found
  obtain ⟨result', found', spec⟩ := get_of_named resolves named
  obtain rfl := Except.ok.inj (found'.symm.trans found)
  refine ⟨named, ?_⟩
  rw [sole_iff]
  simp only [← sole]
  constructor
  · intro lone
    obtain ⟨-, first, rest, parts, -⟩ := id lone
    exact ⟨first.identity, first,
      (spec first).mpr ⟨by rw [parts]; rfl, lone⟩, rfl⟩
  · rintro ⟨identity, entry, is, -⟩
    exact ((spec entry).mp is).2

/-! ## Trees of services -/

mutual

/-- What holds of a service if it holds of all its mixins holds of all
services. -/
theorem induction_on_mixins {P : Service → Prop}
    (step : ∀ service : Service,
      (∀ name mixed, .mixin name mixed ∈ service.nameList → P mixed) →
        P service) :
    ∀ service, P service
  | .mk _ _ nameList => step _ (induction_in_mixins step nameList)

theorem induction_in_mixins {P : Service → Prop}
    (step : ∀ service : Service,
      (∀ name mixed, .mixin name mixed ∈ service.nameList → P mixed) →
        P service) :
    ∀ (rest : List Named) name mixed, .mixin name mixed ∈ rest → P mixed
  | named :: rest, name, mixed, member => by
      cases named with
      | mixin first other =>
          rcases List.mem_cons.mp member with same | later
          · cases same
            exact induction_on_mixins step mixed
          · exact induction_in_mixins step rest name mixed later
      | _ =>
          rcases List.mem_cons.mp member with same | later
          · cases same
          · exact induction_in_mixins step rest name mixed later

end

/-- Something holds of a service and of all that are mixed in. -/
def Throughout (P : Service → Prop) (service : Service) : Prop :=
  ∀ path inner, Within service path inner → P inner

theorem throughout_iff {P : Service → Prop} :
    Throughout P service ↔ P service ∧
      ∀ name mixed, .mixin name mixed ∈ service.nameList →
        Throughout P mixed := by
  constructor
  · exact fun all => ⟨all [] service (.here service),
      fun name mixed declared path inner within =>
        all (name :: path) inner (.mixin declared within)⟩
  · rintro ⟨top, below⟩ path inner within
    cases within with
    | here => exact top
    | mixin declared rest => exact below _ _ declared _ _ rest

/-- A module with a constant, and two services that mix it in. -/
def limits : Service :=
  .mk (text "m") (text "Limits") [.other (text "MAX") none none]

def client : Service :=
  .mk (text "m") (text "Client") [.mixin (text "m.Limits") limits]

def server : Service :=
  .mk (text "m") (text "Server") [.mixin (text "m.Limits") limits]

def gateway : Service :=
  .mk (text "m") (text "Gateway")
    [.mixin (text "m.Client") client, .mixin (text "m.Server") server]

end Service

end Etch.Compiler
