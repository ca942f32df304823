import Etch.C.MapSerializer

/-!
# Round trips of the C maps and sets

The array value with what was exported gives the entries back.  Each of them is
found by its key exactly when no two keys have one hash key: those of one type
and class are never in a map together, others are.
-/

namespace Etch.C

open Etch.Library.Buckets

variable {layout : KeyLayout}

/-! ## Tables that the operations make -/

theorem Pointer.alike_comm (pointer : Pointer) (left right : ObjectHeader) :
    pointer.alike left right = pointer.alike right left := by
  cases pointer <;> exact decide_eq_decide.mpr eq_comm

theorem Pointer.alike_self (pointer : Pointer) (header : ObjectHeader) :
    pointer.alike header header = true := by
  cases pointer <;> exact decide_eq_true rfl

namespace EtchHashtable

/-- Two items that can be in one table. -/
def Apart (layout : KeyLayout)
    (left right : Hitem EtchObject (Option EtchObject)) : Prop :=
  ¬ (left.hval = right.hval ∧ layout.pointer.alike
    (left.key.header layout) (right.key.header layout) = true)

theorem Apart.symm {left right : Hitem EtchObject (Option EtchObject)}
    (apart : Apart layout left right) : Apart layout right left := by
  rintro ⟨same, alike⟩
  rw [Pointer.alike_comm] at alike
  exact apart ⟨same.symm, alike⟩

/-- What holds of every map and set. -/
structure Regular (layout : KeyLayout) (kind : MapKind) (map : EtchHashtable) :
    Prop where
  contentType : map.contentType = kind.content
  sound : map.realtable.Sound
  hashed : ∀ item ∈ map.realtable.items,
    item.hval = item.key.hashkey layout ∧ item.hval ≠ 0
  apart : map.realtable.items.Pairwise (Apart layout)
  count : map.realtable.count = map.realtable.items.length
  unvalued : kind = .set → ∀ item ∈ map.realtable.items, item.stuff = none

theorem regular_new (layout : KeyLayout) (kind : MapKind) (initialsize : Int) :
    (new kind initialsize).Regular layout kind where
  contentType := rfl
  sound := Htab.sound_hcreate _
  hashed := by
    unfold new
    rw [Htab.items_hcreate]
    exact fun _ mem => nomatch mem
  apart := by
    unfold new
    rw [Htab.items_hcreate]
    exact .nil
  count := by
    unfold new
    rw [Htab.items_hcreate]
    rfl
  unvalued := by
    unfold new
    rw [Htab.items_hcreate]
    exact fun _ _ mem => nomatch mem

variable {map : EtchHashtable} {key : EtchObject} {value : Option EtchObject}

theorem haddx_count {K V : Type} {pointer : Pointer}
    {header : K → ObjectHeader} {t t' : Htab K V} {key : K} {value : V}
    (added : t.haddx pointer header key value = some t') :
    t'.count = t.count + 1 := by
  unfold Htab.haddx at added
  dsimp only at added
  split_ifs at added <;> cases added <;> rfl

/-- A key is refused, or its entry is put in. -/
theorem add_cases (layout : KeyLayout) (sound : map.realtable.Sound) (key : EtchObject)
    (value : Option EtchObject) :
    map.add layout key value = map ∧ (key.hashkey layout = 0 ∨
      ∃ item ∈ map.realtable.items,
        ¬ Apart layout ⟨key, value, key.hashkey layout⟩ item) ∨
    ∃ realtable, map.add layout key value = { map with realtable } ∧
      realtable.Sound ∧ realtable.count = map.realtable.count + 1 ∧
        key.hashkey layout ≠ 0 ∧
        (∀ item ∈ map.realtable.items,
          Apart layout ⟨key, value, key.hashkey layout⟩ item) ∧
        realtable.items.Perm
          (⟨key, value, key.hashkey layout⟩ :: map.realtable.items) := by
  have refused := Htab.haddx_eq_none_iff layout.pointer
    (EtchObject.header layout) sound key value
  cases added : map.realtable.haddx layout.pointer
      (EtchObject.header layout) key value with
  | none =>
      refine .inl ⟨?_, ?_⟩
      · unfold add Htab.inserth
        rw [added]
      · rcases refused.mp added with zero | ⟨item, mem, hval, alike⟩
        · exact .inl zero
        · exact .inr ⟨item, mem, fun apart => apart ⟨hval.symm, alike⟩⟩
  | some realtable =>
      obtain ⟨sound', same⟩ := Htab.haddx_eq_some sound added
      have accepted : ¬ _ := fun is =>
        nomatch added.symm.trans (refused.mpr is)
      refine .inr ⟨realtable, ?_, sound', haddx_count added,
        fun zero => accepted (.inl zero), fun item mem => ?_, same⟩
      · unfold add Htab.inserth
        rw [added]
      · rintro ⟨hval, alike⟩
        exact accepted (.inr ⟨item, mem, hval.symm, alike⟩)

theorem Regular.add {kind : MapKind} (regular : map.Regular layout kind)
    (key : EtchObject) (unvalued : kind = .set → value = none) :
    (map.add layout key value).Regular layout kind := by
  rcases add_cases layout regular.sound key value with
    ⟨same, _⟩ | ⟨realtable, eq, sound, count, nonzero, apart, perm⟩
  · rw [same]
    exact regular
  · rw [eq]
    refine ⟨regular.contentType, sound, ?_, ?_, ?_, ?_⟩
    · intro item mem
      rcases List.mem_cons.mp (perm.mem_iff.mp mem) with rfl | mem
      · exact ⟨rfl, nonzero⟩
      · exact regular.hashed item mem
    · refine (perm.pairwise_iff Apart.symm).mpr ?_
      exact List.pairwise_cons.mpr ⟨apart, regular.apart⟩
    · rw [perm.length_eq, List.length_cons]
      exact count.trans (congrArg (· + 1) regular.count)
    · intro is item mem
      rcases List.mem_cons.mp (perm.mem_iff.mp mem) with rfl | mem
      · exact unvalued is
      · exact regular.unvalued is item mem

/-- Items that can be in one table are all put in. -/
theorem foldl_add {items : List (Hitem EtchObject (Option EtchObject))}
    (sound : map.realtable.Sound)
    (hashed : ∀ item ∈ items,
      item.hval = item.key.hashkey layout ∧ item.hval ≠ 0)
    (apart : (map.realtable.items ++ items).Pairwise (Apart layout)) :
    ∃ realtable, items.foldl
        (fun map item => map.add layout item.key item.stuff) map =
      { map with realtable } ∧ realtable.Sound ∧
        realtable.items.Perm (map.realtable.items ++ items) := by
  induction items generalizing map with
  | nil =>
      refine ⟨map.realtable, rfl, sound, ?_⟩
      rw [List.append_nil]
  | cons item items ih =>
      have hval := hashed item List.mem_cons_self
      rw [List.foldl_cons]
      have first : ∀ other ∈ map.realtable.items, Apart layout
          ⟨item.key, item.stuff, item.key.hashkey layout⟩ other := by
        intro other mem
        have apart' := (List.pairwise_append.mp apart).2.2 other mem item
          List.mem_cons_self
        rw [← hval.1]
        exact apart'.symm
      rcases add_cases layout sound item.key item.stuff with
        ⟨_, zero | ⟨other, mem, not⟩⟩ |
          ⟨realtable, eq, sound', _, _, _, perm⟩
      · exact absurd (hval.1.trans zero) hval.2
      · exact absurd (first other mem) not
      · rw [← hval.1] at perm
        have perm' : (realtable.items ++ items).Perm
            (map.realtable.items ++ item :: items) :=
          (perm.append_right items).trans List.perm_middle.symm
        obtain ⟨table, folded, sound'', same⟩ := @ih
          { map with realtable } sound'
          (fun other mem => hashed other (List.mem_cons_of_mem _ mem))
          ((perm'.pairwise_iff Apart.symm).mpr apart)
        rw [eq]
        exact ⟨table, folded, sound'', same.trans perm'⟩

end EtchHashtable

/-- A map or a set. -/
abbrev EtchMap (layout : KeyLayout) (kind : MapKind) :=
  { map : EtchHashtable // map.Regular layout kind }

namespace EtchMap

variable {kind : MapKind}

def new (layout : KeyLayout) (kind : MapKind) (initialsize : Int) :
    EtchMap layout kind :=
  ⟨.new kind initialsize, EtchHashtable.regular_new layout kind initialsize⟩

/-- `etchmap_map_add(map, key, value)` -/
def mapAdd (map : EtchMap layout .map) (key : EtchObject)
    (value : Option EtchObject) : EtchMap layout .map :=
  ⟨map.val.add layout key value, map.property.add key (fun is => nomatch is)⟩

/-- The hash keys of the keys. -/
def hashkeys (map : EtchMap layout kind) : List UInt32 :=
  map.val.entries.map fun entry => entry.1.hashkey layout

theorem hashkeys_eq (map : EtchMap layout kind) :
    map.hashkeys = map.val.realtable.items.map Hitem.hval := by
  unfold hashkeys EtchHashtable.entries
  rw [List.map_map]
  refine List.map_congr_left fun item mem => ?_
  exact (map.property.hashed item mem).1.symm

end EtchMap

/-! ## What is imported -/

/-- The same entries, each found by its key. -/
structure EtchHashtable.Exact (layout : KeyLayout)
    (map imported : EtchHashtable) : Prop where
  contentType : imported.contentType = map.contentType
  entries : imported.entries.Perm map.entries
  found : ∀ entry ∈ map.entries, imported.find layout entry.1 = some entry

namespace MapSerializer

variable (serializer : MapSerializer)
  (map : EtchMap layout serializer.kind)

/-- The calls of a loop over what a map exported are those of its entries. -/
theorem mapAdds_flatMap (place : Nat)
    (entries : List (EtchObject × Option EtchObject)) :
    (mapAdds place (entries.flatMap fun (key, value) => [some key, value])).map
      (fun add => (add.key, add.value)) = entries := by
  induction entries generalizing place with
  | nil => rfl
  | cons entry entries ih =>
      rw [List.flatMap_cons]
      exact congrArg (entry :: ·) (ih (place + 2))

theorem length_exported :
    (serializer.exported map.val).length =
      serializer.listsize map.val.realtable.count := by
  obtain ⟨kind, type⟩ := serializer
  have count : map.val.entries.length = map.val.realtable.count := by
    rw [map.property.count]
    exact List.length_map _
  cases kind with
  | map =>
      change (map.val.entries.flatMap _).length = _ * 2
      rw [List.length_flatMap, ← count]
      simp [Nat.mul_comm]
  | set => exact (List.length_map _).trans count

/-- The calls of an import are those of the items. -/
theorem importList_exported (initial : EtchHashtable) :
    (match serializer.kind with
      | .map => (mapAdds 0 (serializer.exported map.val)).foldl
          (fun map add => map.add layout add.key add.value) initial
      | .set => ((serializer.exported map.val).filterMap id).foldl
          (fun map key => map.add layout key none) initial) =
      map.val.realtable.items.foldl
        (fun map item => map.add layout item.key item.stuff) initial := by
  obtain ⟨kind, type⟩ := serializer
  cases kind with
  | map =>
      change (mapAdds 0 (map.val.entries.flatMap _)).foldl _ initial = _
      have calls := mapAdds_flatMap 0 map.val.entries
      have folded := congrArg (fun calls : List (EtchObject × _) =>
        calls.foldl (fun map call => map.add layout call.1 call.2) initial)
        calls
      dsimp only at folded
      rw [List.foldl_map] at folded
      refine folded.trans ?_
      exact List.foldl_map
  | set =>
      change ((map.val.entries.map _).filterMap id).foldl _ initial = _
      have keys : (map.val.entries.map fun (key, _) => some key).filterMap
          id = map.val.realtable.items.map Hitem.key := by
        unfold EtchHashtable.entries
        rw [List.map_map, List.filterMap_map]
        exact congrFun (List.filterMap_eq_map (f := Hitem.key)) _
      rw [keys, List.foldl_map]
      refine List.foldl_ext _ _ _ fun table item mem => ?_
      rw [map.property.unvalued rfl item mem]

/-- What is imported from an array value with what was exported: the entries
are put into a new table one after another. -/
theorem importValue_carried
    (small : serializer.listsize map.val.realtable.count < 2 ^ 31) :
    ∃ initialsize, (serializer.exportValue map.val).bind
        (fun struct => serializer.importValue layout struct.carried) =
      some (map.val.realtable.items.foldl
        (fun map item => map.add layout item.key item.stuff)
        (EtchHashtable.new serializer.kind initialsize)) := by
  have exports : serializer.exportValue map.val = some ⟨serializer.type,
      some (.nativearray (serializer.exported map.val))⟩ := by
    unfold exportValue
    rw [if_neg (not_not.mpr map.property.contentType), if_pos small]
  have whole : (serializer.exported map.val).take
      (Int32.ofNat (serializer.exported map.val).length).toInt.toNat =
      serializer.exported map.val := by
    rw [length_exported, Int32.toInt_ofNat_of_lt small]
    exact List.take_of_length_le (length_exported serializer map).le
  rw [exports]
  unfold MapStruct.carried importValue
  dsimp only [Option.bind_some, Option.map_some]
  rw [if_neg (not_not.mpr rfl), whole]
  have calls := importList_exported serializer map
  obtain ⟨kind, type⟩ := serializer
  cases kind with
  | map => exact ⟨_, congrArg some (calls _)⟩
  | set => exact ⟨_, congrArg some (calls _)⟩

/-- Of an entry that is found: another key of its hash key is not. -/
theorem nodup_of_found {imported : EtchHashtable}
    (found : ∀ entry ∈ map.val.entries,
      imported.find layout entry.1 = some entry) : map.hashkeys.Nodup := by
  rw [EtchMap.hashkeys_eq]
  refine List.pairwise_map.mpr
    (map.property.apart.imp_of_mem fun {left right} memLeft memRight apart => ?_)
  intro same
  have finds (item : Hitem EtchObject (Option EtchObject))
      (mem : item ∈ map.val.realtable.items) :
      (imported.realtable.findh item.hval).map
        (fun item => (item.key, item.stuff)) = some (item.key, item.stuff) := by
    rw [(map.property.hashed item mem).1]
    exact found (item.key, item.stuff) (List.mem_map.mpr ⟨item, mem, rfl⟩)
  have both := (finds left memLeft).symm.trans (same ▸ finds right memRight)
  refine apart ⟨same, ?_⟩
  rw [(Prod.mk.inj (Option.some.inj both)).1]
  exact Pointer.alike_self _ _

/-- Entries of different hash keys are all found. -/
theorem found_of_nodup (nodup : map.hashkeys.Nodup) {realtable}
    (sound : realtable.Sound)
    (same : realtable.items.Perm map.val.realtable.items) :
    ∀ entry ∈ map.val.entries, (EtchHashtable.mk serializer.kind.content
      realtable).find layout entry.1 = some entry := by
  rintro _ entry
  obtain ⟨item, mem, rfl⟩ := List.mem_map.mp entry
  rw [EtchMap.hashkeys_eq, ← (same.map Hitem.hval).nodup_iff] at nodup
  have keyed : realtable.Keyed (EtchObject.header layout) :=
    ⟨sound, nodup, fun item mem =>
      (map.property.hashed item (same.mem_iff.mp mem)).1⟩
  obtain ⟨hashed, nonzero⟩ := map.property.hashed item mem
  have there := keyed.hfindx_eq_some_iff.mpr ⟨same.mem_iff.mpr mem, hashed⟩
  unfold EtchHashtable.find Htab.findh
  dsimp only
  rw [if_neg (hashed ▸ nonzero), there]
  rfl

/-- The array value with what is exported is imported as it was exactly when
its size is an `int` and no two keys have one hash key. -/
theorem carried_exact_iff :
    (∃ imported, (serializer.exportValue map.val).bind
        (fun struct => serializer.importValue layout struct.carried) =
          some imported ∧ map.val.Exact layout imported) ↔
      serializer.listsize map.val.realtable.count < 2 ^ 31 ∧
        map.hashkeys.Nodup := by
  constructor
  · rintro ⟨imported, came, exact⟩
    refine ⟨?_, nodup_of_found serializer map exact.found⟩
    by_contra large
    unfold exportValue at came
    rw [if_neg (not_not.mpr map.property.contentType), if_neg large] at came
    exact nomatch came
  · rintro ⟨small, nodup⟩
    obtain ⟨initialsize, came⟩ := importValue_carried serializer map small
    have regular :=
      EtchHashtable.regular_new layout serializer.kind initialsize
    have empty : (EtchHashtable.new serializer.kind
        initialsize).realtable.items = [] := Htab.items_hcreate _
    obtain ⟨realtable, folded, sound, same⟩ := EtchHashtable.foldl_add
      regular.sound map.property.hashed
      (by rw [empty]; exact map.property.apart)
    rw [empty] at same
    rw [folded] at came
    refine ⟨_, came, map.property.contentType.symm, same.map _,
      found_of_nodup serializer map nodup sound same⟩

/-- The native array itself is not imported. -/
theorem importValue_exportValue :
    (serializer.exportValue map.val).bind (serializer.importValue layout) =
      none := by
  unfold exportValue
  rw [if_neg (not_not.mpr map.property.contentType)]
  split_ifs
  · unfold importValue
    exact if_neg (not_not.mpr rfl)
  · rfl

end MapSerializer

/-! ## Keys and values in pairs -/

/-- A call has the key of an even place and what stands behind it, `NULL` at
the end. -/
def MapAdd.Paired (list : List (Option EtchObject)) (add : MapAdd) : Prop :=
  add.place % 2 = 0 ∧ list[add.place]? = some (some add.key) ∧
    add.value = list[add.place + 1]?.join

/-- Behind `NULL` in the place of a key stands `NULL`, or nothing. -/
def NullsPaired (list : List (Option EtchObject)) : Prop :=
  ∀ pair, list[2 * pair]? = some none → list[2 * pair + 1]?.join = none

/-- What the calls of a loop are made with. -/
theorem mem_mapAdds {place : Nat} {list : List (Option EtchObject)}
    {add : MapAdd} (mem : add ∈ mapAdds place list) :
    ∃ index, add.place = place + index ∧ list[index]? = some (some add.key) ∧
      add.value = list[index + 1]?.join := by
  induction place, list using mapAdds.induct with
  | case1 place => exact nomatch mem
  | case2 place list ih =>
      obtain ⟨index, at_, key, value⟩ := ih mem
      exact ⟨index + 1, by omega, key, value⟩
  | case3 place key =>
      cases List.mem_singleton.mp mem
      exact ⟨0, rfl, rfl, rfl⟩
  | case4 place key value list ih =>
      rcases List.mem_cons.mp mem with rfl | mem
      · exact ⟨0, rfl, rfl, rfl⟩
      · obtain ⟨index, at_, key, value⟩ := ih mem
        exact ⟨index + 2, by omega, key, value⟩

theorem nullsPaired_cons_cons (first second : Option EtchObject)
    (list : List (Option EtchObject)) :
    NullsPaired (first :: second :: list) ↔
      (first = none → second = none) ∧ NullsPaired list := by
  constructor
  · intro paired
    refine ⟨fun is => ?_, fun pair => paired (pair + 1)⟩
    exact paired 0 (congrArg some is)
  · rintro ⟨here, rest⟩ pair is
    cases pair with
    | zero => exact here (Option.some.inj is)
    | succ pair => exact rest pair is

/-- The keys of a loop that begins at an even place are in even places as long
as `NULL` stands behind `NULL`. -/
theorem even_places_iff (place : Nat) (even : place % 2 = 0) :
    ∀ list : List (Option EtchObject),
      (∀ add ∈ mapAdds place list, add.place % 2 = 0) ↔ NullsPaired list
  | [] => iff_of_true (fun _ mem => nomatch mem) fun _ is => nomatch is
  | [none] => iff_of_true (fun _ mem => nomatch mem) fun pair is => by
      cases pair with
      | zero => rfl
      | succ pair => exact nomatch is
  | [some key] => by
      refine iff_of_true (fun add mem => ?_) fun pair is => ?_
      · cases List.mem_singleton.mp mem
        exact even
      · cases pair <;> exact nomatch is
  | none :: none :: list => by
      rw [nullsPaired_cons_cons, ← even_places_iff (place + 2) (by omega) list]
      exact (and_iff_right fun _ => rfl).symm
  | none :: some value :: list => by
      rw [nullsPaired_cons_cons]
      refine iff_of_false (fun all => ?_) fun paired => nomatch paired.1 rfl
      -- the value is taken for a key
      have odd : ∃ add ∈ mapAdds (place + 1) (some value :: list),
          add.place = place + 1 := by
        cases list <;> exact ⟨_, List.mem_cons_self, rfl⟩
      obtain ⟨add, mem, is⟩ := odd
      have := all add mem
      omega
  | some key :: value :: list => by
      rw [nullsPaired_cons_cons, ← even_places_iff (place + 2) (by omega) list]
      constructor
      · intro all
        exact ⟨(fun is => nomatch is),
          fun add mem => all add (List.mem_cons_of_mem _ mem)⟩
      · rintro ⟨_, all⟩ add mem
        rcases List.mem_cons.mp mem with rfl | mem
        · exact even
        · exact all add mem

/-- A loop takes keys with their values exactly when `NULL` stands behind
`NULL` in the place of a key. -/
theorem paired_iff (list : List (Option EtchObject)) :
    (∀ add ∈ mapAdds 0 list, add.Paired list) ↔ NullsPaired list := by
  rw [← even_places_iff 0 rfl]
  refine forall₂_congr fun add mem => ?_
  obtain ⟨index, is, key, value⟩ := mem_mapAdds mem
  rw [Nat.zero_add] at is
  subst is
  exact ⟨And.left, fun even => ⟨even, key, value⟩⟩

/-- Export hands over no array value and so is not imported by itself; the
array value with what it hands over is imported exactly when its size is an
`int` and the keys have different hash keys; and a list is imported pair by
pair exactly when `NULL` stands behind `NULL` in the place of a key. -/
theorem serializers_exact_iff (layout : KeyLayout)
    (serializer : MapSerializer) :
    (∀ map : EtchMap layout serializer.kind,
      (serializer.exportValue map.val).bind (serializer.importValue layout) =
        none) ∧
    (∀ map : EtchMap layout serializer.kind,
      (∃ imported, (serializer.exportValue map.val).bind
          (fun struct => serializer.importValue layout struct.carried) =
            some imported ∧ map.val.Exact layout imported) ↔
        serializer.listsize map.val.realtable.count < 2 ^ 31 ∧
          map.hashkeys.Nodup) ∧
    ∀ list, (∀ add ∈ mapAdds 0 list, add.Paired list) ↔ NullsPaired list :=
  ⟨serializer.importValue_exportValue, serializer.carried_exact_iff,
    paired_iff⟩

/-! ## A map with two keys of one hash key -/

/-- The map from `TRUE` and from the byte 1 to no values. -/
def trueAndOne : EtchMap ⟨.ucs4, .bits64⟩ .map :=
  ((EtchMap.new _ .map 4).mapAdd (.boolean 1) none).mapAdd (.byte 1) none

theorem hashkeys_trueAndOne : ¬ trueAndOne.hashkeys.Nodup := by
  decide +kernel

/-- It is not imported from what was exported, and from the array value not
each of the keys is found. -/
theorem trueAndOne_not_exact :
    ¬ ∀ (layout : KeyLayout) (serializer : MapSerializer)
      (map : EtchMap layout serializer.kind),
      (∃ imported, (serializer.exportValue map.val).bind
        (serializer.importValue layout) = some imported ∧
          map.val.Exact layout imported) ∨
      ∃ imported, (serializer.exportValue map.val).bind
        (fun struct => serializer.importValue layout struct.carried) =
          some imported ∧ map.val.Exact layout imported := by
  intro all
  rcases all _ ⟨.map, 0⟩ trueAndOne with ⟨_, came, _⟩ | exact
  · rw [MapSerializer.importValue_exportValue] at came
    exact nomatch came
  · exact hashkeys_trueAndOne
      ((MapSerializer.carried_exact_iff ⟨.map, 0⟩ trueAndOne).mp exact).2

end Etch.C
