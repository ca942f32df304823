import Etch.C.Hashtable
import Etch.Library.Fueled

/-!
# The C `etch_type`

A type keeps its fields in one hash table and the validators of a field in
another one.  The key is the hash key of the field, which is computed from its
name.  A field that is asked for by its name is added when no item of that hash
key is there; when it can not be added it is asked for by its name.
-/

namespace Etch.C

open Etch.Library.Fueled
open Etch.IdNames.C (Iconv Wchar etch_encoding_transcode_wchar
  compute_id_name_id_from_widename)

/-! ## Fields -/

/-- What the compiler and the libraries decide. -/
structure Platform where
  iconv : Iconv
  /-- whether a `char` is signed -/
  signed : Bool
  wchar : Wchar
  pointer : Pointer

/-- The characters in front of the terminator. -/
abbrev WideName := List UInt32

structure EtchField where
  /-- which object it is -/
  object : Nat
  hashkey : UInt32
  id : UInt32
  name : WideName

def ETCHTYPEB_FIELD : UInt16 := 0x15
def CLASSID_ID_FIELD : UInt16 := 0x24

def EtchField.header (field : EtchField) : ObjectHeader :=
  ⟨field.hashkey, ETCHTYPEB_FIELD, CLASSID_ID_FIELD⟩

namespace Platform

variable (platform : Platform)

/-- `id_name_get_hashkey` -/
def hash (name : WideName) : UInt32 :=
  etch_get_wchar_hashkey platform.wchar name

/-- The characters of a name can be converted, which is asserted. -/
def Converts (name : WideName) : Prop :=
  (etch_encoding_transcode_wchar platform.iconv platform.wchar
    (name ++ [0])).isSome

instance (name : WideName) : Decidable (platform.Converts name) :=
  inferInstanceAs (Decidable (_ = true))

/-- The field of a name, as this object. -/
def field (object : Nat) (name : WideName) : EtchField where
  object
  hashkey := platform.hash name
  id := (compute_id_name_id_from_widename platform.iconv platform.signed
    platform.wchar (name ++ [0])).toUInt32
  name

/-- `new_field(name)` and `clone_id_name` of a field -/
def newField (object : Nat) (name : WideName) : Option EtchField :=
  if platform.Converts name then some (platform.field object name) else none

/-- What every field has that was made. -/
structure Made (field : EtchField) : Prop where
  hashed : field.hashkey = platform.hash field.name
  converts : platform.Converts field.name

theorem made_field {name : WideName} (converts : platform.Converts name)
    (object : Nat) : platform.Made (platform.field object name) :=
  ⟨rfl, converts⟩

end Platform

/-! ## Validators -/

/-- Validators of the caller and `new_combo_validator` -/
inductive Validator (W : Type) where
  | single (vtor : W)
  | combo (vtor_a vtor_b : Validator W)

/-! ## Types -/

structure EtchType (W : Type) where
  fieldmap : Htab EtchField Unit
  vtormap : Htab EtchField (Validator W)
  /-- the number of fields that were made -/
  objects : Nat

namespace EtchType

variable {W : Type} (platform : Platform)

/-- `new_type(name)`: `ETCHTYPE_DEFSIZE_FIELDMAP` is 8 and
`ETCHTYPE_DEFSIZE_VTORMAP` is 4. -/
def newType : EtchType W :=
  ⟨.hcreate 3, .hcreate 2, 0⟩

/-- `new_field(name)` -/
def newField (type : EtchType W) (name : WideName) :
    Option (EtchField × EtchType W) :=
  (platform.newField type.objects name).map fun field =>
    (field, { type with objects := type.objects + 1 })

/-- `etchtype_get_key_by_name(fieldmap, name)` -/
def getKeyByName (map : Htab EtchField Unit) (name : WideName) :
    Option EtchField :=
  (map.findh (platform.hash name)).map Hitem.key

mutual

/-- `etchtype_add_field(type, field)`, in so many calls -/
def addField : Nat → EtchType W → EtchField → Option (EtchField × EtchType W)
  | 0, _, _ => none
  | fuel + 1, type, field =>
      match type.fieldmap.inserth platform.pointer EtchField.header field ()
      with
      | some fieldmap => some (field, { type with fieldmap })
      | none => getFieldByName fuel type field.name

/-- `etchtype_get_field_by_name(type, name)` -/
def getFieldByName :
    Nat → EtchType W → WideName → Option (EtchField × EtchType W)
  | 0, _, _ => none
  | fuel + 1, type, name =>
      match getKeyByName platform type.fieldmap name with
      | some field => some (field, type)
      | none => do
          let (field, type) ← type.newField platform name
          addField fuel type field

end

/-- `etchtype_get_field_by_id(type, id)` -/
def getFieldById (type : EtchType W) (id : UInt32) : Option EtchField :=
  (type.fieldmap.items.find? fun item => item.key.id = id).map Hitem.key

/-- What `inserth` gives back, 0 or -1, and the table behind it. -/
def inserted {V : Type} (map : Htab EtchField V) (key : EtchField) (value : V) :
    Int32 × Htab EtchField V :=
  match map.inserth platform.pointer EtchField.header key value with
  | some map => (0, map)
  | none => (-1, map)

/-- `etchtype_put_validator(type, field, new_vtor)` -/
def putValidator (fuel : Nat) (type : EtchType W) (field : EtchField)
    (new_vtor : Validator W) : Option (Int32 × EtchType W) := do
  -- a field of the same name is taken instead of the caller's one
  let (field, type) ← addField platform fuel type field
  match type.vtormap.removeh (platform.hash field.name) with
  | none =>
      let key ← platform.newField type.objects field.name
      let (result, vtormap) := inserted platform type.vtormap key new_vtor
      some (result, { type with vtormap, objects := type.objects + 1 })
  | some (mapentry, vtormap) =>
      let (result, vtormap) := inserted platform vtormap mapentry.key
        (.combo mapentry.stuff new_vtor)
      some (result, { type with vtormap })

/-- `etchtype_get_validator_by_name(type, name)` -/
def getValidatorByName (type : EtchType W) (name : WideName) :
    Option (Validator W) :=
  (type.vtormap.findh (platform.hash name)).map Hitem.stuff

end EtchType

/-! ## Calls -/

/-- A call, with the name of the field that the caller made for it. -/
inductive TypeCall (W : Type) where
  | addField (name : WideName)
  | getFieldByName (name : WideName)
  | getFieldById (id : UInt32)
  | putValidator (name : WideName) (vtor : W)
  | getValidatorByName (name : WideName)

/-- What a call gives back. -/
inductive TypeAnswer (W : Type) where
  | field (field : EtchField)
  | found (field : Option EtchField)
  | result (result : Int32)
  | validator (vtor : Option (Validator W))

/-- A call of the caller. -/
def EtchType.perform {W : Type} (platform : Platform) (fuel : Nat)
    (type : EtchType W) : TypeCall W → Option (TypeAnswer W × EtchType W)
  | .addField name => do
      let (field, type) ← type.newField platform name
      let (field, type) ← addField platform fuel type field
      some (.field field, type)
  | .getFieldByName name => do
      let (field, type) ← getFieldByName platform fuel type name
      some (.field field, type)
  | .getFieldById id => some (.found (type.getFieldById id), type)
  | .putValidator name vtor => do
      let (field, type) ← type.newField platform name
      let (result, type) ← putValidator platform fuel type field (.single vtor)
      some (.result result, type)
  | .getValidatorByName name =>
      some (.validator (type.getValidatorByName platform name), type)

/-! ## What is in the tables -/

namespace EtchType

variable {W : Type} (type type' : EtchType W) (hashval : UInt32)

/-- The field of a hash key. -/
def fieldAt : Option EtchField :=
  (type.fieldmap.hfindx hashval).map Hitem.key

/-- The validator of a hash key. -/
def vtorAt : Option (Validator W) :=
  (type.vtormap.hfindx hashval).map Hitem.stuff

/-- The hash keys of the items are those of their keys, each of them once, and
a field has the hash key of its name, which can be converted. -/
structure Tidy (platform : Platform) : Prop where
  fields : type.fieldmap.Keyed EtchField.header
  vtors : type.vtormap.Keyed EtchField.header
  made : ∀ item ∈ type.fieldmap.items, platform.Made item.key

theorem tidy_newType (platform : Platform) :
    (newType : EtchType W).Tidy platform where
  fields := Htab.keyed_hcreate 3
  vtors := Htab.keyed_hcreate 2
  made := by
    change ∀ item ∈ (Htab.hcreate 3 : Htab EtchField Unit).items, _
    rw [Htab.items_hcreate]
    exact fun _ mem => nomatch mem

variable {platform : Platform} {type type' hashval}

/-- Nothing but the number of objects differs. -/
theorem Tidy.objects (tidy : type.Tidy platform) (objects : Nat) :
    ({ type with objects } : EtchType W).Tidy platform :=
  ⟨tidy.fields, tidy.vtors, tidy.made⟩

theorem Tidy.made_of_fieldAt (tidy : type.Tidy platform) {field : EtchField}
    (found : type.fieldAt hashval = some field) :
    platform.Made field ∧ platform.hash field.name = hashval := by
  obtain ⟨item, here, rfl⟩ := Option.map_eq_some_iff.mp found
  obtain ⟨mem, hval⟩ := Htab.mem_of_hfindx tidy.fields.sound here
  have made := tidy.made item mem
  refine ⟨made, ?_⟩
  rw [← made.hashed, ← hval]
  exact (tidy.fields.hashed item mem).symm

theorem getKeyByName_eq (name : WideName) :
    getKeyByName platform type.fieldmap name =
      if platform.hash name = 0 then none
      else type.fieldAt (platform.hash name) := by
  unfold getKeyByName Htab.findh
  split_ifs <;> rfl

theorem getValidatorByName_eq (name : WideName) :
    type.getValidatorByName platform name =
      if platform.hash name = 0 then none
      else type.vtorAt (platform.hash name) := by
  unfold getValidatorByName Htab.findh
  split_ifs <;> rfl

/-- What is found by an id has it, and is in the table. -/
theorem getFieldById_eq_some {id : UInt32} {field : EtchField}
    (found : type.getFieldById id = some field) : field.id = id := by
  obtain ⟨item, here, rfl⟩ := Option.map_eq_some_iff.mp found
  have same := List.find?_some here
  exact of_decide_eq_true same

/-- What is in the table does not have an id by which nothing is found. -/
theorem Tidy.id_ne_of_getFieldById (tidy : type.Tidy platform) {id : UInt32}
    (absent : type.getFieldById id = none) {field : EtchField}
    (found : type.fieldAt hashval = some field) : field.id ≠ id := by
  obtain ⟨item, here, rfl⟩ := Option.map_eq_some_iff.mp found
  obtain ⟨mem, _⟩ := Htab.mem_of_hfindx tidy.fields.sound here
  intro same
  exact List.find?_eq_none.mp (Option.map_eq_none_iff.mp absent) item mem
    (decide_eq_true same)

/-! ## Adding a field -/

/-- A field of this hash key is in the table; it is the one that was there, if
one was. -/
structure Entered (type : EtchType W) (field found : EtchField)
    (type' : EtchType W) : Prop where
  taken : found = (type.fieldAt field.hashkey).getD field
  fieldAt : ∀ hashval, type'.fieldAt hashval =
    if field.hashkey = hashval then some found else type.fieldAt hashval

variable {field : EtchField}

theorem Tidy.inserth_of_some (tidy : type.Tidy platform) {found : EtchField}
    (here : type.fieldAt field.hashkey = some found) :
    type.fieldmap.inserth platform.pointer EtchField.header field () = none := by
  obtain ⟨item, there, _⟩ := Option.map_eq_some_iff.mp here
  obtain ⟨mem, hval⟩ := Htab.mem_of_hfindx tidy.fields.sound there
  refine (Htab.haddx_eq_none_iff _ _ tidy.fields.sound field ()).mpr
    (.inr ⟨item, mem, hval, ?_⟩)
  -- the types and the classes of fields are equal
  have same : field.header = item.key.header := by
    have hashed := tidy.fields.hashed item mem
    change item.hval = item.key.hashkey at hashed
    unfold EtchField.header
    rw [← hashed, hval]
  rw [same]
  cases platform.pointer <;> exact decide_eq_true rfl

theorem Tidy.inserth_of_zero (tidy : type.Tidy platform)
    (zero : field.hashkey = 0) :
    type.fieldmap.inserth platform.pointer EtchField.header field () = none :=
  (Htab.haddx_eq_none_iff _ _ tidy.fields.sound field ()).mpr (.inl zero)

/-- A field of a hash key that is not there. -/
theorem Tidy.inserth_of_none (tidy : type.Tidy platform)
    (made : platform.Made field) (nonzero : field.hashkey ≠ 0)
    (absent : type.fieldAt field.hashkey = none) :
    ∃ fieldmap, type.fieldmap.inserth platform.pointer EtchField.header
      field () = some fieldmap ∧
        ({ type with fieldmap } : EtchType W).Tidy platform ∧
          type.Entered field field { type with fieldmap } := by
  have fresh : type.fieldmap.hfindx field.header.hashkey = none :=
    Option.map_eq_none_iff.mp absent
  obtain ⟨fieldmap, added⟩ := tidy.fields.haddx_fresh
    platform.pointer () nonzero fresh
  obtain ⟨keyed, finds⟩ := tidy.fields.haddx added fresh
  refine ⟨fieldmap, added, ⟨keyed, tidy.vtors, ?_⟩, ?_, ?_⟩
  · intro item mem
    obtain ⟨_, same⟩ := Htab.haddx_eq_some tidy.fields.sound added
    rcases List.mem_cons.mp (same.mem_iff.mp mem) with rfl | mem
    · exact made
    · exact tidy.made item mem
  · rw [absent]
    rfl
  · intro hashval
    change (fieldmap.hfindx hashval).map Hitem.key = _
    rw [finds hashval]
    change Option.map _ (if field.hashkey = hashval then _ else _) = _
    split_ifs <;> rfl

theorem getFieldByName_of_some (fuel : Nat) {name : WideName}
    (nonzero : platform.hash name ≠ 0) {found : EtchField}
    (here : type.fieldAt (platform.hash name) = some found) :
    getFieldByName platform (fuel + 1) type name = some (found, type) := by
  have key : getKeyByName platform type.fieldmap name = some found := by
    rw [getKeyByName_eq, if_neg nonzero, here]
  rw [getFieldByName, key]

theorem entered_of_some {found : EtchField}
    (here : type.fieldAt field.hashkey = some found) :
    type.Entered field found type where
  taken := by
    rw [here]
    rfl
  fieldAt := by
    intro hashval
    split_ifs with same
    · rw [← same, here]
    · rfl

/-- A field that has a hash key is added. -/
theorem Tidy.addField (tidy : type.Tidy platform)
    (made : platform.Made field) (nonzero : field.hashkey ≠ 0) :
    ∃ found type', type'.Tidy platform ∧ type.Entered field found type' ∧
      type'.vtormap = type.vtormap ∧ Returns (fun fuel => EtchType.addField platform fuel type field)
        (found, type') := by
  cases here : type.fieldAt field.hashkey with
  | none =>
      obtain ⟨fieldmap, added, tidy', entered⟩ :=
        tidy.inserth_of_none made nonzero here
      refine ⟨field, _, tidy', entered, rfl,
        (Returns.const _).later rfl fun fuel => ?_⟩
      rw [EtchType.addField, added]
  | some found =>
      -- the field that is there is found by the name
      have finds : Returns (fun fuel =>
          EtchType.getFieldByName platform fuel type field.name)
          (found, type) :=
        (Returns.const _).later rfl fun fuel =>
          getFieldByName_of_some fuel (made.hashed ▸ nonzero)
            (made.hashed ▸ here)
      refine ⟨found, type, tidy, entered_of_some here, rfl,
        finds.later rfl fun fuel => ?_⟩
      rw [EtchType.addField, tidy.inserth_of_some here]

/-- A name without a hash key is looked for without end. -/
theorem endless (fuel : Nat) {name : WideName}
    (zero : platform.hash name = 0) :
    (∀ (type : EtchType W) (field : EtchField), type.Tidy platform →
      field.hashkey = 0 → field.name = name →
        EtchType.addField platform fuel type field = none) ∧
    ∀ type : EtchType W, type.Tidy platform →
      EtchType.getFieldByName platform fuel type name = none := by
  induction fuel with
  | zero => exact ⟨fun _ _ _ _ _ => rfl, fun _ _ => rfl⟩
  | succ fuel ih =>
      constructor
      · rintro type field tidy without rfl
        rw [EtchType.addField, tidy.inserth_of_zero without]
        exact ih.2 type tidy
      · intro type tidy
        rw [EtchType.getFieldByName, getKeyByName_eq, if_pos zero]
        dsimp only
        cases made : type.newField platform name with
        | none => rfl
        | some pair =>
            obtain ⟨field, new, rfl⟩ := Option.map_eq_some_iff.mp made
            unfold Platform.newField at new
            split_ifs at new
            cases new
            exact ih.1 _ _ (tidy.objects _) zero rfl

/-- The field that is found by a name, or a new one that is added. -/
theorem Tidy.getFieldByName (tidy : type.Tidy platform) {name : WideName}
    (converts : platform.Converts name) (nonzero : platform.hash name ≠ 0) :
    ∃ found type', type'.Tidy platform ∧
      type.Entered (platform.field type.objects name) found type' ∧
        type'.vtormap = type.vtormap ∧ Returns (fun fuel => EtchType.getFieldByName platform fuel type name)
          (found, type') := by
  cases here : type.fieldAt (platform.hash name) with
  | none =>
      obtain ⟨found, type', tidy', entered, same, returns⟩ :=
        (tidy.objects (type.objects + 1)).addField
          (platform.made_field converts type.objects) nonzero
      refine ⟨found, type', tidy', ⟨entered.taken, entered.fieldAt⟩, same,
        returns.later rfl fun fuel => ?_⟩
      have absent : getKeyByName platform type.fieldmap name = none := by
        rw [getKeyByName_eq, if_neg nonzero, here]
      rw [EtchType.getFieldByName, absent]
      dsimp only
      rw [EtchType.newField, Platform.newField, if_pos converts]
      rfl
  | some found =>
      refine ⟨found, type, tidy, entered_of_some here, rfl,
        (Returns.const _).later rfl fun fuel => ?_⟩
      exact getFieldByName_of_some fuel nonzero here

/-- A name that can not be converted is only found. -/
theorem getFieldByName_eq_none {name : WideName}
    (refused : ¬ platform.Converts name)
    (absent : type.fieldAt (platform.hash name) = none) (fuel : Nat) :
    EtchType.getFieldByName platform fuel type name = none := by
  cases fuel with
  | zero => rfl
  | succ fuel =>
      have key : getKeyByName platform type.fieldmap name = none := by
        rw [getKeyByName_eq, absent, ite_self]
      rw [EtchType.getFieldByName, key]
      dsimp only
      rw [EtchType.newField, Platform.newField, if_neg refused]
      rfl

/-! ## Putting a validator -/

/-- What a validator is with the one that is put behind it. -/
def chained (before : Option (Validator W)) (vtor : Validator W) :
    Validator W :=
  match before with
  | none => vtor
  | some before => .combo before vtor

/-- A key that is not in the table is inserted. -/
theorem inserted_fresh (platform : Platform) {V : Type}
    {map : Htab EtchField V} (keyed : map.Keyed EtchField.header)
    (key : EtchField) (value : V)
    (nonzero : key.hashkey ≠ 0) (fresh : map.hfindx key.hashkey = none) :
    ∃ map', inserted platform map key value = (0, map') ∧
      map'.Keyed EtchField.header ∧ ∀ hashval, map'.hfindx hashval =
        if key.hashkey = hashval then some ⟨key, value, key.hashkey⟩
        else map.hfindx hashval := by
  obtain ⟨map', added⟩ := keyed.haddx_fresh platform.pointer value nonzero fresh
  obtain ⟨keyed', finds⟩ := keyed.haddx added fresh
  refine ⟨map', ?_, keyed', finds⟩
  unfold inserted Htab.inserth
  rw [added]

/-- A validator is put behind the one of its field's hash key. -/
theorem Tidy.putValidator (tidy : type.Tidy platform)
    (made : platform.Made field) (nonzero : field.hashkey ≠ 0)
    (vtor : Validator W) :
    ∃ found type', type'.Tidy platform ∧ type.Entered field found type' ∧
      (∀ hashval, type'.vtorAt hashval = if field.hashkey = hashval then
        some (chained (type.vtorAt field.hashkey) vtor)
          else type.vtorAt hashval) ∧
      Returns (fun fuel =>
        EtchType.putValidator platform fuel type field vtor) (0, type') := by
  obtain ⟨found, between, tidy', entered, same, returns⟩ :=
    tidy.addField made nonzero
  have here : between.fieldAt field.hashkey = some found := by
    rw [entered.fieldAt, if_pos rfl]
  obtain ⟨made', hashed⟩ := tidy'.made_of_fieldAt here
  have keyed := tidy'.vtors
  have vtorAt_eq (hashval : UInt32) : type.vtorAt hashval =
      (between.vtormap.hfindx hashval).map Hitem.stuff := by
    rw [same]
    rfl
  cases removed : between.vtormap.removeh field.hashkey with
  | none =>
      have fresh : between.vtormap.hfindx field.hashkey = none := by
        unfold Htab.removeh at removed
        rw [if_neg nonzero] at removed
        exact Option.map_eq_none_iff.mp removed
      let key := platform.field between.objects found.name
      have keyHash : key.hashkey = field.hashkey := hashed
      obtain ⟨map', done, keyed', finds⟩ := inserted_fresh platform
        keyed key vtor (keyHash ▸ nonzero) (keyHash ▸ fresh)
      refine ⟨found, { between with
          vtormap := map', objects := between.objects + 1 },
        ⟨tidy'.fields, keyed', tidy'.made⟩, ⟨entered.taken, entered.fieldAt⟩,
        fun hashval => ?_, returns.bind ?_⟩
      · change (map'.hfindx hashval).map Hitem.stuff = _
        rw [finds, keyHash, vtorAt_eq, vtorAt_eq, fresh]
        split_ifs <;> rfl
      · dsimp only
        rw [hashed, removed]
        dsimp only
        rw [Platform.newField, if_pos made'.converts]
        dsimp only [Option.bind_eq_bind, Option.bind_some]
        rw [done]
  | some pair =>
      obtain ⟨mapentry, vtormap⟩ := pair
      obtain ⟨there, _⟩ := Htab.removeh_eq_some keyed.sound removed
      obtain ⟨keyed', finds⟩ := keyed.removeh removed
      obtain ⟨mem, hval⟩ := Htab.mem_of_hfindx keyed.sound there
      have keyHash : mapentry.key.hashkey = field.hashkey :=
        (keyed.hashed mapentry mem).symm.trans hval
      have fresh : vtormap.hfindx mapentry.key.hashkey = none := by
        rw [keyHash, finds, if_pos rfl]
      obtain ⟨map', done, keyed'', finds'⟩ :=
        inserted_fresh platform keyed' mapentry.key
          (.combo mapentry.stuff vtor) (keyHash ▸ nonzero) fresh
      refine ⟨found, { between with vtormap := map' },
        ⟨tidy'.fields, keyed'', tidy'.made⟩, ⟨entered.taken, entered.fieldAt⟩,
        fun hashval => ?_, returns.bind ?_⟩
      · change (map'.hfindx hashval).map Hitem.stuff = _
        rw [finds', keyHash, finds, vtorAt_eq, vtorAt_eq, there]
        split_ifs <;> rfl
      · dsimp only
        rw [hashed, removed]
        dsimp only
        rw [done]

end EtchType

end Etch.C
