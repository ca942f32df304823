import Etch.IdNames
import Etch.Library.Buckets
import Mathlib.Data.List.Nodup
import Mathlib.Data.Nat.Bits

/-!
# The C `etch_hashtable`

The table of Jenkins, with keys that are objects: an object begins with its
hash key, its type and its class, and as many of these as a pointer has bytes
tell two keys apart.  A `ub4` is the number of four bytes that its name says.
-/

namespace Etch.C

open Etch.IdNames.C (Wchar)
open Etch.Library.Buckets

/-! ## Hash keys -/

/-- `mix(a, b, c)` -/
def mix (a b c : UInt32) : UInt32 × UInt32 × UInt32 :=
  let a := (a - b - c) ^^^ (c >>> 13)
  let b := (b - c - a) ^^^ (a <<< 8)
  let c := (c - a - b) ^^^ (b >>> 13)
  let a := (a - b - c) ^^^ (c >>> 12)
  let b := (b - c - a) ^^^ (a <<< 16)
  let c := (c - a - b) ^^^ (b >>> 5)
  let a := (a - b - c) ^^^ (c >>> 3)
  let b := (b - c - a) ^^^ (a <<< 10)
  let c := (c - a - b) ^^^ (b >>> 15)
  (a, b, c)

namespace Jenkins

/-- Four bytes, the lowest one first. -/
def word (k0 k1 k2 k3 : UInt8) : UInt32 :=
  k0.toUInt32 + (k1.toUInt32 <<< 8) + (k2.toUInt32 <<< 16) +
    (k3.toUInt32 <<< 24)

/-- The loop of `lookup` and what follows it; bytes that are not there add
nothing. -/
def lookupFrom (length a b c : UInt32) : List UInt8 → UInt32
  | k0 :: k1 :: k2 :: k3 :: k4 :: k5 :: k6 :: k7 :: k8 :: k9 :: k10 :: k11 ::
      k =>
      let (a, b, c) := mix (a + word k0 k1 k2 k3) (b + word k4 k5 k6 k7)
        (c + word k8 k9 k10 k11)
      lookupFrom length a b c k
  | k =>
      let byte (position : Nat) : UInt8 := k.getD position 0
      -- the first byte of `c` is for the length
      (mix (a + word (byte 0) (byte 1) (byte 2) (byte 3))
        (b + word (byte 4) (byte 5) (byte 6) (byte 7))
        (c + length + word 0 (byte 8) (byte 9) (byte 10))).2.2

/-- `lookup(k, length, level)` -/
def lookup (k : List UInt8) (level : UInt32) : UInt32 :=
  lookupFrom (UInt32.ofNat k.length) 0x9e3779b9 0x9e3779b9 level k

def ETCH_HASH_MAX_KEYLENGTH : Int32 := 1024

def etchhash (pkey : List UInt8) (keylen : Int32) (priorhash : UInt32) :
    UInt32 :=
  if keylen < 1 ∨ keylen > ETCH_HASH_MAX_KEYLENGTH then
    0
  else
    lookup (pkey.take keylen.toInt.toNat) priorhash

end Jenkins

/-- A character in memory. -/
def Wchar.bytes (wchar : Wchar) (c : UInt32) : List UInt8 :=
  [c.toUInt8, (c >>> 8).toUInt8, (c >>> 16).toUInt8,
    (c >>> 24).toUInt8].take wchar.size

/-- `etch_get_wchar_hashkey` for the characters in front of the terminator -/
def etch_get_wchar_hashkey (wchar : Wchar) (s : List UInt32) : UInt32 :=
  let keybytelen := UInt32.ofNat (s.length * wchar.size)
  if keybytelen = 0 then
    0
  else
    Jenkins.etchhash (s.flatMap (Wchar.bytes wchar)) keybytelen.toInt32 0

/-! ## Tables -/

/-- The bytes of a pointer. -/
inductive Pointer where
  | bits32
  | bits64

/-- What an `etch_object` begins with. -/
structure ObjectHeader where
  hashkey : UInt32
  objType : UInt16
  classId : UInt16
deriving DecidableEq

/-- `memcmp` of as many bytes as a pointer has -/
def Pointer.alike (pointer : Pointer) (left right : ObjectHeader) : Bool :=
  match pointer with
  | .bits32 => left.hashkey = right.hashkey
  | .bits64 => left = right

structure Hitem (K V : Type) where
  key : K
  stuff : V
  hval : UInt32

/-- The place of an item. -/
def Hitem.code {K V : Type} (item : Hitem K V) : Nat :=
  item.hval.toNat

/-- A table of `2 ^ logsize` chains. -/
structure Htab (K V : Type) where
  table : List (List (Hitem K V))
  logsize : Nat
  count : Nat

namespace Htab

variable {K V : Type}

def hcreate (logsize : Nat) : Htab K V :=
  ⟨List.replicate (2 ^ logsize) [], logsize, 0⟩

/-- The items in the order of `hfirst` and `hnext`. -/
def items (t : Htab K V) : List (Hitem K V) :=
  t.table.flatten

/-- The chains are walked from the last to the first. -/
def hgrow (t : Htab K V) : Htab K V :=
  { t with
    table := spread Hitem.code (2 ^ (t.logsize + 1)) t.table.reverse.flatten
    logsize := t.logsize + 1 }

/-- The first item of this hash value. -/
def hfindx (t : Htab K V) (hashval : UInt32) : Option (Hitem K V) :=
  (chain t.table hashval.toNat).find? fun h => h.hval = hashval

/-- `haddx`, without a table where it gives `FALSE` -/
def haddx (pointer : Pointer) (header : K → ObjectHeader) (t : Htab K V)
    (keyobj : K) (valobj : V) : Option (Htab K V) :=
  let hashval := (header keyobj).hashkey
  if hashval = 0 then
    none
  else if (chain t.table hashval.toNat).any fun h =>
      hashval = h.hval && pointer.alike (header keyobj) (header h.key) then
    none
  else
    let t := { t with count := t.count + 1 }
    -- make the table bigger if it is getting full
    let t := if t.count > 2 ^ t.logsize then t.hgrow else t
    some { t with table := push Hitem.code t.table ⟨keyobj, valobj, hashval⟩ }

/-- `jenkins_inserth` -/
def inserth (pointer : Pointer) (header : K → ObjectHeader) (t : Htab K V)
    (key : K) (data : V) : Option (Htab K V) :=
  t.haddx pointer header key data

/-- `jenkins_findh` -/
def findh (t : Htab K V) (hashed : UInt32) : Option (Hitem K V) :=
  if hashed = 0 then none else t.hfindx hashed

/-- `jenkins_removeh`: the item that `hfindx` is at is deleted. -/
def removeh (t : Htab K V) (key : UInt32) : Option (Hitem K V × Htab K V) :=
  if key = 0 then
    none
  else
    (t.hfindx key).map fun h => (h,
      { t with
        table := erase t.table key.toNat fun h => h.hval = key
        count := t.count - 1 })

/-! ## What the operations do -/

variable {pointer : Pointer} {header : K → ObjectHeader} {t t' : Htab K V}
  {item : Hitem K V} {hashval : UInt32}

/-- Every item is in its chain. -/
abbrev Sound (t : Htab K V) : Prop :=
  Bucketed Hitem.code t.table

theorem sound_hcreate (logsize : Nat) :
    (hcreate logsize : Htab K V).Sound :=
  placed_replicate (Nat.two_pow_pos logsize)

theorem items_hcreate (logsize : Nat) :
    (hcreate logsize : Htab K V).items = [] :=
  List.flatten_replicate_nil

/-- An item of the hash value in the chain is one in the table. -/
theorem mem_chain_and_hval_iff (sound : t.Sound) :
    item ∈ chain t.table hashval.toNat ∧ item.hval = hashval ↔
      item ∈ t.items ∧ item.hval = hashval := by
  rw [mem_chain_iff sound]
  constructor
  · rintro ⟨⟨mem, _⟩, same⟩
    exact ⟨mem, same⟩
  · rintro ⟨mem, rfl⟩
    exact ⟨⟨mem, rfl⟩, rfl⟩

theorem mem_of_hfindx (sound : t.Sound)
    (found : t.hfindx hashval = some item) :
    item ∈ t.items ∧ item.hval = hashval := by
  have same := List.find?_some found
  exact (mem_chain_and_hval_iff sound).mp
    ⟨List.mem_of_find?_eq_some found, of_decide_eq_true same⟩

theorem hfindx_eq_none_iff (sound : t.Sound) :
    t.hfindx hashval = none ↔ ∀ item ∈ t.items, item.hval ≠ hashval := by
  unfold hfindx
  rw [List.find?_eq_none]
  constructor
  · intro absent item mem same
    exact absent item ((mem_chain_and_hval_iff sound).mpr ⟨mem, same⟩).1
      (decide_eq_true same)
  · intro absent item mem same
    have same := of_decide_eq_true same
    exact absent item ((mem_chain_and_hval_iff sound).mp ⟨mem, same⟩).1 same

theorem hfindx_hcreate (logsize : Nat) :
    (hcreate logsize : Htab K V).hfindx hashval = none := by
  refine (hfindx_eq_none_iff (sound_hcreate logsize)).mpr fun item mem => ?_
  rw [items_hcreate] at mem
  exact nomatch mem

theorem sound_hgrow : t.hgrow.Sound :=
  placed_spread (Nat.two_pow_pos _) _

theorem flatten_reverse_perm {α : Type} (lists : List (List α)) :
    lists.reverse.flatten.Perm lists.flatten :=
  (List.reverse_perm lists).flatten

theorem hgrow_perm : t.hgrow.items.Perm t.items :=
  (spread_perm (Nat.two_pow_pos _) _).trans (flatten_reverse_perm t.table)

/-- Whether a key is refused. -/
theorem haddx_eq_none_iff (pointer : Pointer) (header : K → ObjectHeader)
    (sound : t.Sound) (key : K) (value : V) :
    t.haddx pointer header key value = none ↔
      (header key).hashkey = 0 ∨ ∃ item ∈ t.items,
        item.hval = (header key).hashkey ∧
          pointer.alike (header key) (header item.key) = true := by
  unfold haddx
  dsimp only
  split_ifs with zero same
  · exact iff_of_true rfl (.inl zero)
  · obtain ⟨item, mem, alike⟩ := List.any_eq_true.mp same
    rw [Bool.and_eq_true, decide_eq_true_iff] at alike
    exact iff_of_true rfl (.inr ⟨item, ((mem_chain_and_hval_iff sound).mp
      ⟨mem, alike.1.symm⟩).1, alike.1.symm, alike.2⟩)
  all_goals
    refine iff_of_false (fun none => nomatch none) ?_
    rintro (zero' | ⟨item, mem, hashed, alike⟩)
    · exact zero zero'
    · refine same (List.any_eq_true.mpr ⟨item,
        ((mem_chain_and_hval_iff sound).mpr ⟨mem, hashed⟩).1, ?_⟩)
      rw [Bool.and_eq_true, decide_eq_true_iff]
      exact ⟨hashed.symm, alike⟩

/-- A key that is not refused is put in. -/
theorem haddx_eq_some (sound : t.Sound) {key : K} {value : V}
    (added : t.haddx pointer header key value = some t') :
    t'.Sound ∧ t'.items.Perm
      (⟨key, value, (header key).hashkey⟩ :: t.items) := by
  unfold haddx at added
  dsimp only at added
  split_ifs at added with zero same full
  · cases added
    exact ⟨sound_hgrow.push _,
      (push_perm sound_hgrow.inhabited _).trans (hgrow_perm.cons _)⟩
  · cases added
    exact ⟨sound.push _, push_perm sound.inhabited _⟩

/-- What is found is taken out. -/
theorem removeh_eq_some (sound : t.Sound)
    (removed : t.removeh hashval = some (item, t')) :
    t.hfindx hashval = some item ∧ t'.Sound ∧
      t.items.Perm (item :: t'.items) := by
  unfold removeh at removed
  split_ifs at removed with zero
  obtain ⟨found, here, same⟩ := Option.map_eq_some_iff.mp removed
  cases same
  exact ⟨here, sound.erase _ _, erase_perm sound.inhabited here⟩

/-! ## Tables without equal hash values -/

/-- A table that has at most one item of a hash value, which is that of its
key. -/
structure Keyed (header : K → ObjectHeader) (t : Htab K V) : Prop where
  sound : t.Sound
  distinct : (t.items.map Hitem.hval).Nodup
  hashed : ∀ item ∈ t.items, item.hval = (header item.key).hashkey

theorem keyed_hcreate (logsize : Nat) :
    (hcreate logsize : Htab K V).Keyed header where
  sound := sound_hcreate logsize
  distinct := by
    rw [items_hcreate]
    exact .nil
  hashed := by
    rw [items_hcreate]
    exact fun _ mem => nomatch mem

theorem Keyed.hfindx_eq_some_iff (keyed : t.Keyed header) :
    t.hfindx hashval = some item ↔ item ∈ t.items ∧ item.hval = hashval := by
  constructor
  · exact mem_of_hfindx keyed.sound
  · rintro ⟨mem, same⟩
    cases found : t.hfindx hashval with
    | none =>
        exact absurd same ((hfindx_eq_none_iff keyed.sound).mp found item mem)
    | some other =>
        obtain ⟨mem', same'⟩ := mem_of_hfindx keyed.sound found
        rw [List.inj_on_of_nodup_map keyed.distinct mem' mem
          (same'.trans same.symm)]

/-- An item of another hash value is in a table when it is in the rest. -/
theorem Keyed.hfindx_of_cons (keyed : t.Keyed header)
    (keyed' : t'.Keyed header) (same : t.items.Perm (item :: t'.items))
    (other : item.hval ≠ hashval) :
    t.hfindx hashval = t'.hfindx hashval := by
  refine Option.ext fun found => ?_
  rw [keyed.hfindx_eq_some_iff, keyed'.hfindx_eq_some_iff, same.mem_iff,
    List.mem_cons]
  constructor
  · rintro ⟨rfl | mem, hval⟩
    · exact absurd hval other
    · exact ⟨mem, hval⟩
  · rintro ⟨mem, hval⟩
    exact ⟨.inr mem, hval⟩

/-- What a key is found by once it is put in. -/
theorem Keyed.haddx (keyed : t.Keyed header) {key : K} {value : V}
    (added : t.haddx pointer header key value = some t')
    (fresh : t.hfindx (header key).hashkey = none) :
    t'.Keyed header ∧ ∀ hashval, t'.hfindx hashval =
      if (header key).hashkey = hashval then
        some ⟨key, value, (header key).hashkey⟩
      else
        t.hfindx hashval := by
  obtain ⟨sound, same⟩ := haddx_eq_some keyed.sound added
  have absent := (hfindx_eq_none_iff keyed.sound).mp fresh
  have keyed' : t'.Keyed header := by
    refine ⟨sound, ?_, ?_⟩
    · rw [(same.map Hitem.hval).nodup_iff, List.map_cons, List.nodup_cons]
      refine ⟨fun mem => ?_, keyed.distinct⟩
      obtain ⟨item, mem, hval⟩ := List.mem_map.mp mem
      exact absent item mem hval
    · intro item mem
      rcases List.mem_cons.mp (same.mem_iff.mp mem) with rfl | mem
      · rfl
      · exact keyed.hashed item mem
  refine ⟨keyed', fun hashval => ?_⟩
  split_ifs with here
  · exact keyed'.hfindx_eq_some_iff.mpr
      ⟨same.mem_iff.mpr List.mem_cons_self, here⟩
  · exact keyed'.hfindx_of_cons keyed same here

/-- A key of a hash value that is not there yet is put in. -/
theorem Keyed.haddx_fresh (keyed : t.Keyed header) (pointer : Pointer)
    {key : K} (value : V)
    (nonzero : (header key).hashkey ≠ 0)
    (fresh : t.hfindx (header key).hashkey = none) :
    ∃ t', t.haddx pointer header key value = some t' := by
  refine Option.ne_none_iff_exists'.mp fun refused => ?_
  rcases (haddx_eq_none_iff pointer header keyed.sound key
      value).mp refused with
    zero | ⟨item, mem, hval, _⟩
  · exact nonzero zero
  · exact (hfindx_eq_none_iff keyed.sound).mp fresh item mem hval

/-- What is found once the item of a hash value is taken out. -/
theorem Keyed.removeh (keyed : t.Keyed header)
    (removed : t.removeh hashval = some (item, t')) :
    t'.Keyed header ∧ ∀ other, t'.hfindx other =
      if hashval = other then none else t.hfindx other := by
  obtain ⟨found, sound, same⟩ := removeh_eq_some keyed.sound removed
  obtain ⟨_, hval⟩ := mem_of_hfindx keyed.sound found
  have distinct := keyed.distinct
  rw [(same.map Hitem.hval).nodup_iff, List.map_cons, List.nodup_cons]
    at distinct
  have keyed' : t'.Keyed header := ⟨sound, distinct.2, fun item mem =>
    keyed.hashed item (same.mem_iff.mpr (List.mem_cons_of_mem _ mem))⟩
  refine ⟨keyed', fun other => ?_⟩
  split_ifs with here
  · refine (hfindx_eq_none_iff sound).mpr fun item' mem hval' => ?_
    exact distinct.1 (List.mem_map.mpr
      ⟨item', mem, hval'.trans (here.symm.trans hval.symm)⟩)
  · exact (keyed.hfindx_of_cons keyed' same (hval ▸ here)).symm

end Htab

end Etch.C
