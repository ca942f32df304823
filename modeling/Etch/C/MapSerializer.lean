import Etch.C.ObjectKeys
import Mathlib.Data.List.Perm.Lattice

/-!
# The C serializers of maps and sets

A map is exported as an array of its keys and values, one after another, and a
set as an array of its keys.  What is imported is an array value; `NULL` in
the place of a key is skipped, and the next place is that of a key again.
-/

namespace Etch.C

open Etch.Library.Buckets

/-! ## Maps and sets -/

/-- `is_this_a_set` -/
inductive MapKind where
  | map
  | set

/-- `ETCHHASHTABLE_CONTENT_OBJECT_OBJECT`, `ETCHHASHTABLE_CONTENT_OBJECT_NONE`
and the others -/
inductive MapContent where
  | objectObject
  | objectNone
  | other
deriving DecidableEq

def MapKind.content : MapKind → MapContent
  | map => .objectObject
  | set => .objectNone

/-- An `etch_hashtable`; `NULL` is `none`. -/
structure EtchHashtable where
  contentType : MapContent
  realtable : Htab EtchObject (Option EtchObject)

/-- The binary digits that `jenkins_create` counts, less one. -/
def jenkinsLogsize (initialsize_items : Int) : Nat :=
  let initialsize : Nat :=
    if initialsize_items ≤ 0 then 16
    else if initialsize_items < 4 then 4
    else initialsize_items.toNat
  Nat.log2 (min initialsize 32768)

namespace EtchHashtable

variable (layout : KeyLayout)

/-- `new_etch_map(initialsize)` and `new_etch_set(initialsize)` -/
def new (kind : MapKind) (initialsize : Int) : EtchHashtable :=
  ⟨kind.content, .hcreate (jenkinsLogsize initialsize)⟩

/-- `etchmap_map_add` and `etchmap_set_add`, which leave the table as it is
where they give -1 -/
def add (map : EtchHashtable) (key : EtchObject) (value : Option EtchObject) :
    EtchHashtable :=
  match map.realtable.inserth layout.pointer (EtchObject.header layout) key
    value with
  | some realtable => { map with realtable }
  | none => map

/-- `etchmap_map_find(map, key, out)` -/
def find (map : EtchHashtable) (key : EtchObject) :
    Option (EtchObject × Option EtchObject) :=
  (map.realtable.findh (key.hashkey layout)).map fun item =>
    (item.key, item.stuff)

/-- The entries in the order of the iterator. -/
def entries (map : EtchHashtable) : List (EtchObject × Option EtchObject) :=
  map.realtable.items.map fun item => (item.key, item.stuff)

end EtchHashtable

/-! ## Export and import -/

/-- What a struct has under the field of the serializer. -/
inductive MapField where
  | nativearray (content : List (Option EtchObject))
  | arrayvalue (list : List (Option EtchObject))
  | other

/-- An `etch_structvalue` with what `structvalue_get` gives -/
structure MapStruct where
  structType : Nat
  field : Option MapField

/-- `new_arrayvalue_from`: content that is wrapped is taken as it is. -/
def MapStruct.carried (struct : MapStruct) : MapStruct :=
  { struct with
    field := struct.field.map fun field => match field with
      | .nativearray content => .arrayvalue content
      | field => field }

/-- A serializer with its type. -/
structure MapSerializer where
  kind : MapKind
  type : Nat

/-- The places of a key and of its value, and what stands there, in a call of
`etchmap_map_add`. -/
structure MapAdd where
  place : Nat
  key : EtchObject
  value : Option EtchObject

/-- The loop of the import from a place on. -/
def mapAdds (place : Nat) : List (Option EtchObject) → List MapAdd
  | [] => []
  -- `continue` behind `i++`
  | none :: list => mapAdds (place + 1) list
  -- behind the last place `arrayvalue_get` gives `NULL`
  | [some key] => [⟨place, key, none⟩]
  | some key :: value :: list => ⟨place, key, value⟩ :: mapAdds (place + 2) list

namespace MapSerializer

variable (layout : KeyLayout) (serializer : MapSerializer)

/-- `listsize` -/
def listsize (mapsize : Nat) : Nat :=
  match serializer.kind with
  | .map => mapsize * 2
  | .set => mapsize

/-- What is put into the array. -/
def exported (map : EtchHashtable) : List (Option EtchObject) :=
  match serializer.kind with
  | .map => map.entries.flatMap fun (key, value) => [some key, value]
  | .set => map.entries.map fun (key, _) => some key

/-- `etchserializer_map_export_value`; there is no array of a size that is no
`int`. -/
def exportValue (map : EtchHashtable) : Option MapStruct :=
  if map.contentType ≠ serializer.kind.content then
    none
  else if serializer.listsize map.realtable.count < 2 ^ 31 then
    some ⟨serializer.type, some (.nativearray (serializer.exported map))⟩
  else
    none

/-- `etchserializer_map_import_value` -/
def importValue (struct : MapStruct) : Option EtchHashtable :=
  if struct.structType ≠ serializer.type then
    none
  else
    match struct.field with
    | some (.arrayvalue list) =>
        let listcount := Int32.ofNat list.length
        let list := list.take listcount.toInt.toNat
        some (match serializer.kind with
          | .map => (mapAdds 0 list).foldl
              (fun map add => map.add layout add.key add.value)
              (EtchHashtable.new .map (listcount / 2).toInt)
          | .set => (list.filterMap id).foldl
              (fun map key => map.add layout key none)
              (EtchHashtable.new .set listcount.toInt))
    | _ => none

end MapSerializer

end Etch.C
