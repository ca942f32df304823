import Etch.Java.Gathering

/-!
# Values as they come back

An integer comes back at its least width, wherever a validator does not say
what it should be.  Two keys of a set or a map that differ by their widths
alone become one, and a map whose values are cast to `Integer` takes none that
has become a `Byte` or a `Short`.
-/

namespace Etch.Java

open Etch.Library.Stateful BinaryTaggedData FloatingPoint

/-! ## Serializable values -/

/-- An array of this component type can have the element in it. -/
def Stores : JavaClass → Value → Prop
  | .boolean, .boolean _ => True
  | .byte, .byte _ => True
  | .short, .short _ => True
  | .int, .int _ => True
  | .long, .long _ => True
  | .float, .float _ => True
  | .double, .double _ => True
  | .string, .null => True
  | .string, .string _ => True
  | .object, _ => True
  | .array _, .null => True
  | .array component, .array component' _ => component' = component
  | _, _ => False

/-- The state of a collection of a kind. -/
def Shaped : Kind → List Value → Prop
  | .map, state => ∃ entries, state = unpair entries
  | .strIntHashMap, state => ∃ entries, state = unpair entries ∧
      ∀ entry ∈ entries, castString entry.1 = .ok entry.1 ∧
        castInteger entry.2 = .ok entry.2
  | .strStrHashMap, state => ∃ entries, state = unpair entries ∧
      ∀ entry ∈ entries, castString entry.1 = .ok entry.1 ∧
        castString entry.2 = .ok entry.2
  | .date, state => ∃ time, state = [.long time]
  | _, _ => True

namespace StandardFactory

variable {S : Type} (factory : StandardFactory S)

mutual

/-- Values of the native types and the kinds, and arrays of native types. -/
def Serializable : Value → Prop
  | .null => True
  | .NONE => False
  | .float bits => floatToIntBits bits = bits
  | .double bits => doubleToLongBits bits = bits
  | .string s => Utf8.WellFormed s
  | .array component elements =>
      getNativeTypeCode component.base.1 ≠ TypeCode.CUSTOM ∧
        component.base.2 + 1 ≤ Validator.MAX_NDIMS ∧
        (∀ element ∈ elements, Stores component element) ∧
        SerializableAll elements
  | .struct _ _ => False
  | .custom clss state =>
      (∃ kind, factory.kindOf clss = some kind ∧ Shaped kind state) ∧
        SerializableAll state
  | _ => True

def SerializableAll : List Value → Prop
  | [] => True
  | value :: values => Serializable value ∧ SerializableAll values

end

/-! ## What comes back -/

mutual

/-- A value with its integers at their least widths. -/
def narrow : Value → Value
  | .byte n => narrowed n.toInt
  | .short n => narrowed n.toInt
  | .int n => narrowed n.toInt
  | .long n => narrowed n.toInt
  | .array component elements =>
      .array component
        (if component.isPrimitive then elements else narrowAll elements)
  | .custom clss state =>
      match factory.kindOf clss with
      | some kind =>
          .custom kind.className
            (if kind = .date then state else narrowAll state)
      | none => .custom clss state
  | value => value

def narrowAll : List Value → List Value
  | [] => []
  | value :: values => narrow value :: narrowAll values

end

mutual

/-- What is read of what has been written for a value. -/
def back : Value → Except Thrown Value
  | .array component elements =>
      .array component <$> backAll component elements
  | .custom clss state =>
      match factory.kindOf clss with
      | some kind =>
          if kind = .date then
            .ok (.custom kind.className state)
          else do
            let elements ← backAll .object state
            Value.custom kind.className <$>
              gather factory.equals kind elements
      | none => .ok (.custom clss state)
  | value => .ok (narrow factory value)

/-- The elements of an array of a component type. -/
def backAll (component : JavaClass) :
    List Value → Except Thrown (List Value)
  | [] => .ok []
  | value :: values => do
      let value ← back value
      let value ← ArrayValue.stored factory.classes.isSuper component value
      let values ← backAll component values
      return value :: values

end

/-! ## What comes back whole -/

/-- No key of a collection is lost and no cast fails. -/
def Kept (kind : Kind) (state : List Value) : Prop :=
  match kind with
  | .set => Apart factory.equals (factory.narrowAll state)
  | .map => Apart factory.equals (keysOf (factory.narrowAll state))
  | .strStrHashMap => Apart factory.equals (keysOf (factory.narrowAll state))
  | .strIntHashMap => Apart factory.equals (keysOf (factory.narrowAll state)) ∧
      ∀ n, .int n ∈ valuesOf state → n.toInt < -32768 ∨ 32767 < n.toInt
  | _ => True

mutual

/-- Every collection in a value is kept. -/
def Faithful : Value → Prop
  | .array _ elements => FaithfulAll elements
  | .custom clss state =>
      FaithfulAll state ∧
        ∀ kind, factory.kindOf clss = some kind → factory.Kept kind state
  | _ => True

def FaithfulAll : List Value → Prop
  | [] => True
  | value :: values => Faithful value ∧ FaithfulAll values

end

/-! ## Elements of arrays -/

/-- A narrowed integer is stored at the width of the array. -/
theorem stored_narrowed (isSuper : String → JavaClass → Bool)
    {width : Width} {number : Int} (inside : width.InRange number) :
    ArrayValue.stored isSuper width.arrayClass (narrowed number) =
      .ok (width.value number) := by
  obtain ⟨lower, upper⟩ := inside
  have byte (small : -128 ≤ number ∧ number ≤ 127) :
      (Int8.ofInt number).toInt = number :=
    Int8.toInt_ofInt_of_le (by omega) (by omega)
  have short (small : -32768 ≤ number ∧ number ≤ 32767) :
      (Int16.ofInt number).toInt = number :=
    Int16.toInt_ofInt_of_le (by omega) (by omega)
  have int (small : -2147483648 ≤ number ∧ number ≤ 2147483647) :
      (Int32.ofInt number).toInt = number :=
    Int32.toInt_ofInt_of_le (by omega) (by omega)
  unfold narrowed
  cases width with
  | byte =>
      rw [if_pos (by simp only [Width.bits] at lower upper; omega)]
      rfl
  | short =>
      simp only [Width.bits] at lower upper
      split_ifs with small
      · refine congrArg (Except.ok ∘ Value.short) (Int16.toInt_inj.mp ?_)
        rw [Int8.toInt_toInt16, byte small, short (by omega)]
      all_goals first | rfl | omega
  | int =>
      simp only [Width.bits] at lower upper
      split_ifs with small small'
      · refine congrArg (Except.ok ∘ Value.int) (Int32.toInt_inj.mp ?_)
        rw [Int8.toInt_toInt32, byte small, int (by omega)]
      · refine congrArg (Except.ok ∘ Value.int) (Int32.toInt_inj.mp ?_)
        rw [Int16.toInt_toInt32, short small', int (by omega)]
      all_goals first | rfl | omega
  | long =>
      simp only [Width.bits] at lower upper
      have long : (Int64.ofInt number).toInt = number :=
        Int64.toInt_ofInt_of_le lower upper
      split_ifs with small small' small''
      · refine congrArg (Except.ok ∘ Value.long) (Int64.toInt_inj.mp ?_)
        rw [Int8.toInt_toInt64, byte small, long]
      · refine congrArg (Except.ok ∘ Value.long) (Int64.toInt_inj.mp ?_)
        rw [Int16.toInt_toInt64, short small', long]
      · refine congrArg (Except.ok ∘ Value.long) (Int64.toInt_inj.mp ?_)
        rw [Int32.toInt_toInt64, int small'', long]
      · rfl

/-- A reference is stored as it is, or not at all. -/
theorem stored_reference {isSuper : String → JavaClass → Bool}
    {component : JavaClass} (reference : component.isPrimitive = false)
    {value value' : Value}
    (done : ArrayValue.stored isSuper component value = .ok value') :
    value' = value := by
  unfold ArrayValue.stored at done
  dsimp only at done
  rw [reference, if_neg Bool.false_ne_true] at done
  split at done
  · exact (Except.ok.inj done).symm
  · split_ifs at done
    exact (Except.ok.inj done).symm

theorem isAssignableFrom_refl (isSuper : String → JavaClass → Bool)
    (clss : JavaClass) : clss.isAssignableFrom isSuper clss = true := by
  induction clss with
  | array component ih => exact ih
  | custom name => simp [JavaClass.isAssignableFrom]
  | _ => rfl

/-- Every reference is stored in an array of objects. -/
theorem stored_object (isSuper : String → JavaClass → Bool) (value : Value) :
    ArrayValue.stored isSuper .object value = .ok value := by
  cases value <;> rfl

/-- An element is stored as it was in the array that has been written. -/
theorem stored_narrow {component : JavaClass} {element : Value}
    (stores : Stores component element) :
    ArrayValue.stored factory.classes.isSuper component
      (factory.narrow element) =
        .ok (if component.isPrimitive then element
          else factory.narrow element) := by
  cases component with
  | boolean =>
      cases element with
      | boolean value => rfl
      | _ => exact stores.elim
  | byte =>
      cases element with
      | byte n =>
          have inside : Width.byte.InRange n.toInt :=
            ⟨n.le_toInt, n.toInt_lt⟩
          have stored := stored_narrowed factory.classes.isSuper inside
          rw [Width.value, Int8.ofInt_toInt] at stored
          exact stored
      | _ => exact stores.elim
  | short =>
      cases element with
      | short n =>
          have inside : Width.short.InRange n.toInt :=
            ⟨n.le_toInt, n.toInt_lt⟩
          have stored := stored_narrowed factory.classes.isSuper inside
          rw [Width.value, Int16.ofInt_toInt] at stored
          exact stored
      | _ => exact stores.elim
  | int =>
      cases element with
      | int n =>
          have inside : Width.int.InRange n.toInt :=
            ⟨n.le_toInt, n.toInt_lt⟩
          have stored := stored_narrowed factory.classes.isSuper inside
          rw [Width.value, Int32.ofInt_toInt] at stored
          exact stored
      | _ => exact stores.elim
  | long =>
      cases element with
      | long n =>
          have inside : Width.long.InRange n.toInt :=
            ⟨n.le_toInt, n.toInt_lt⟩
          have stored := stored_narrowed factory.classes.isSuper inside
          rw [Width.value, Int64.ofInt_toInt] at stored
          exact stored
      | _ => exact stores.elim
  | float =>
      cases element with
      | float bits => rfl
      | _ => exact stores.elim
  | double =>
      cases element with
      | double bits => rfl
      | _ => exact stores.elim
  | string =>
      cases element with
      | null => rfl
      | string s => rfl
      | _ => exact stores.elim
  | object => exact stored_object _ _
  | array component =>
      cases element with
      | null => rfl
      | array component' elements =>
          obtain rfl : component' = component := stores
          exact if_pos (isAssignableFrom_refl _ _)
      | _ => exact stores.elim
  | _ => exact stores.elim

/-! ## What is faithful comes back -/

/-- An entry with its key and its value narrowed. -/
def narrowEntry (entry : Value × Value) : Value × Value :=
  (factory.narrow entry.1, factory.narrow entry.2)

theorem narrowAll_unpair (entries : List (Value × Value)) :
    factory.narrowAll (unpair entries) =
      unpair (entries.map factory.narrowEntry) := by
  induction entries with
  | nil => rfl
  | cons entry entries ih =>
      change factory.narrow entry.1 :: factory.narrow entry.2 ::
        factory.narrowAll (unpair entries) = _
      rw [ih]
      rfl

theorem castString_narrow {value : Value}
    (is : castString value = .ok value) :
    castString (factory.narrow value) = .ok (factory.narrow value) := by
  cases value with
  | null => rfl
  | string s => rfl
  | _ => exact nomatch is

/-- An `Integer` comes back as one where it has no smaller width. -/
theorem castInteger_narrow {value : Value}
    (is : castInteger value = .ok value) :
    castInteger (factory.narrow value) = .ok (factory.narrow value) ↔
      ∀ n, value = .int n → n.toInt < -32768 ∨ 32767 < n.toInt := by
  cases value with
  | null => exact ⟨fun _ => nofun, fun _ => rfl⟩
  | int n =>
      have lower := n.le_toInt
      have upper := n.toInt_lt
      change castInteger (narrowed n.toInt) = .ok (narrowed n.toInt) ↔ _
      unfold narrowed
      constructor
      · rintro casts n' same
        obtain rfl := Value.int.inj same
        by_contra inside
        split_ifs at casts
        · exact nomatch casts
        · exact nomatch casts
        all_goals omega
      · intro wide
        have wide := wide n rfl
        rw [if_neg (by omega), if_neg (by omega), if_pos (by omega)]
        rfl
  | _ => exact nomatch is

theorem putAll_narrow {castKey castValue : Value → Except Thrown Value}
    {entries : List (Value × Value)}
    (keys : ∀ entry ∈ entries, castKey (factory.narrow entry.1) =
      .ok (factory.narrow entry.1))
    (values : ∀ entry ∈ entries, castValue (factory.narrow entry.2) =
      .ok (factory.narrow entry.2))
    (apart : Apart factory.equals
      (keysOf (factory.narrowAll (unpair entries)))) :
    unpair <$> putAll factory.equals castKey castValue
      (factory.narrowAll (unpair entries)) [] =
        .ok (factory.narrowAll (unpair entries)) := by
  rw [factory.narrowAll_unpair] at apart ⊢
  rw [keysOf_unpair] at apart
  rw [putAll_of_apart _ [] ?_ ?_ nofun apart]
  · rfl
  · intro entry mem
    obtain ⟨entry, mem', rfl⟩ := List.mem_map.mp mem
    exact keys entry mem'
  · intro entry mem
    obtain ⟨entry, mem', rfl⟩ := List.mem_map.mp mem
    exact values entry mem'

theorem gather_kept {kind : Kind} {state : List Value}
    (shaped : Shaped kind state) (kept : factory.Kept kind state) :
    gather factory.equals kind (factory.narrowAll state) =
      .ok (factory.narrowAll state) := by
  cases kind with
  | set => exact congrArg Except.ok (foldl_add_of_apart _ _ nofun kept)
  | map =>
      obtain ⟨entries, rfl⟩ := shaped
      exact factory.putAll_narrow (fun _ _ => rfl) (fun _ _ => rfl) kept
  | strIntHashMap =>
      obtain ⟨entries, rfl, casts⟩ := shaped
      obtain ⟨apart, wide⟩ := kept
      refine factory.putAll_narrow (fun entry mem =>
        factory.castString_narrow (casts entry mem).1)
        (fun entry mem => ?_) apart
      refine (factory.castInteger_narrow (casts entry mem).2).mpr
        fun n is => wide n ?_
      rw [valuesOf_unpair, ← is]
      exact List.mem_map_of_mem mem
  | strStrHashMap =>
      obtain ⟨entries, rfl, casts⟩ := shaped
      exact factory.putAll_narrow (fun entry mem =>
        factory.castString_narrow (casts entry mem).1) (fun entry mem =>
          factory.castString_narrow (casts entry mem).2) kept
  | _ => rfl

mutual

theorem back_of_faithful {value : Value}
    (serializable : factory.Serializable value)
    (faithful : factory.Faithful value) :
    factory.back value = .ok (factory.narrow value) := by
  cases value with
  | array component elements =>
      obtain ⟨native, dims, stores, inside⟩ := serializable
      have whole := backAll_of_faithful inside faithful stores
      rw [back, narrow, whole]
      rfl
  | custom clss state =>
      obtain ⟨⟨kind, is, shaped⟩, inside⟩ := serializable
      obtain ⟨inside', kept⟩ := faithful
      rw [back, narrow, is]
      dsimp only
      split_ifs with dated
      · rfl
      · have stores : ∀ element ∈ state, Stores .object element :=
          fun _ _ => trivial
        have whole : factory.backAll .object state =
            .ok (factory.narrowAll state) :=
          backAll_of_faithful inside inside' stores
        rw [whole]
        change Value.custom kind.className <$> gather _ _ _ = _
        rw [factory.gather_kept shaped (kept kind is)]
        rfl
  | NONE => exact serializable.elim
  | struct type fields => exact serializable.elim
  | _ => rfl

theorem backAll_of_faithful {component : JavaClass} {values : List Value}
    (serializable : factory.SerializableAll values)
    (faithful : factory.FaithfulAll values)
    (stores : ∀ value ∈ values, Stores component value) :
    factory.backAll component values =
      .ok (if component.isPrimitive then values
        else factory.narrowAll values) := by
  cases values with
  | nil =>
      rw [backAll, narrowAll, ite_self]
  | cons value values =>
      have first := back_of_faithful serializable.1 faithful.1
      have rest := backAll_of_faithful serializable.2 faithful.2
        fun value mem => stores value (List.mem_cons_of_mem _ mem)
      have stored := factory.stored_narrow (stores _ List.mem_cons_self)
      rw [backAll, first]
      change (ArrayValue.stored factory.classes.isSuper component
        (factory.narrow value) >>= _) = _
      rw [stored]
      change (backAll factory component values >>= _) = _
      rw [rest, narrowAll]
      split_ifs <;> rfl

end

/-! ## What comes back with its weight is faithful -/

theorem castString_casts : Casts castString := by
  intro value value' done
  cases value with
  | null => exact (Except.ok.inj done).symm
  | string s => exact (Except.ok.inj done).symm
  | _ => exact nomatch done

theorem castInteger_casts : Casts castInteger := by
  intro value value' done
  cases value with
  | null => exact (Except.ok.inj done).symm
  | int n => exact (Except.ok.inj done).symm
  | _ => exact nomatch done

theorem ok_casts : Casts .ok :=
  fun _ _ done => (Except.ok.inj done).symm

theorem map_ok {α β : Type} {f : α → β} {result : Except Thrown α} {b : β}
    (done : f <$> result = .ok b) : ∃ a, result = .ok a ∧ f a = b := by
  cases result with
  | error thrown => exact nomatch done
  | ok a => exact ⟨a, rfl, Except.ok.inj done⟩

/-- A map is no heavier than the entries it is built of. -/
theorem weight_unpair_putAll {castKey castValue : Value → Except Thrown Value}
    (castsKey : Casts castKey) (castsValue : Casts castValue)
    {elements state : List Value}
    (done : unpair <$> putAll factory.equals castKey castValue elements [] =
      .ok state) : weightAll state ≤ weightAll elements := by
  obtain ⟨entries, put, rfl⟩ := map_ok done
  obtain ⟨entries', rfl⟩ := putAll_entries put
  have weights := (weight_putAll castsKey castsValue entries' [] put).2.1
  exact weights.trans_eq (Nat.zero_add _)

theorem weight_gather {kind : Kind} {elements state : List Value}
    (done : gather factory.equals kind elements = .ok state) :
    weightAll state ≤ weightAll elements := by
  cases kind with
  | set =>
      obtain rfl := Except.ok.inj done
      have weights : weightAll (elements.foldl
          (HashSet.add factory.equals) []) ≤ 0 + weightAll elements :=
        (weight_foldl_add elements []).1
      exact weights.trans_eq (Nat.zero_add _)
  | map => exact factory.weight_unpair_putAll ok_casts ok_casts done
  | strIntHashMap =>
      exact factory.weight_unpair_putAll castString_casts castInteger_casts
        done
  | strStrHashMap =>
      exact factory.weight_unpair_putAll castString_casts castString_casts
        done
  | _ =>
      obtain rfl := Except.ok.inj done
      exact Nat.le_refl _

/-- What is built with nothing lost. -/
theorem apart_of_putAll {castKey castValue : Value → Except Thrown Value}
    (castsKey : Casts castKey) (castsValue : Casts castValue)
    {entries : List (Value × Value)} {state : List Value}
    (done : unpair <$> putAll factory.equals castKey castValue
      (factory.narrowAll (unpair entries)) [] = .ok state)
    (whole : weightAll state =
      weightAll (factory.narrowAll (unpair entries))) :
    (∀ entry ∈ entries, castValue (factory.narrow entry.2) =
      .ok (factory.narrow entry.2)) ∧
    Apart factory.equals (keysOf (factory.narrowAll (unpair entries))) := by
  rw [factory.narrowAll_unpair] at done whole ⊢
  obtain ⟨after, put, rfl⟩ := map_ok done
  obtain ⟨casts, _, apart⟩ := weight_putAll castsKey castsValue _ [] put
  have start : weightAll (unpair []) = 0 := rfl
  rw [keysOf_unpair]
  exact ⟨fun entry mem => (casts _ (List.mem_map_of_mem mem)).2,
    (apart (by omega)).2⟩

theorem kept_of_gather {kind : Kind} {state state' : List Value}
    (shaped : Shaped kind state)
    (done : gather factory.equals kind (factory.narrowAll state) =
      .ok state')
    (whole : weightAll state' = weightAll (factory.narrowAll state)) :
    factory.Kept kind state := by
  cases kind with
  | set =>
      obtain rfl := Except.ok.inj done
      exact ((weight_foldl_add _ []).2
        (whole.trans (Nat.zero_add _).symm)).2
  | map =>
      obtain ⟨entries, rfl⟩ := shaped
      exact (factory.apart_of_putAll ok_casts ok_casts done whole).2
  | strIntHashMap =>
      obtain ⟨entries, rfl, casts⟩ := shaped
      obtain ⟨integers, apart⟩ :=
        factory.apart_of_putAll castString_casts castInteger_casts done whole
      refine ⟨apart, fun n mem => ?_⟩
      rw [valuesOf_unpair] at mem
      obtain ⟨entry, mem, is⟩ := List.mem_map.mp mem
      exact (factory.castInteger_narrow (casts entry mem).2).mp
        (integers entry mem) n is
  | strStrHashMap =>
      obtain ⟨entries, rfl, casts⟩ := shaped
      exact (factory.apart_of_putAll castString_casts castString_casts done
        whole).2
  | _ => trivial

/-- What an array of a primitive type has in it is no collection. -/
theorem faithful_of_primitive {component : JavaClass} {element : Value}
    (stores : Stores component element)
    (primitive : component.isPrimitive = true) :
    factory.Faithful element := by
  cases element with
  | array component' elements =>
      cases component <;>
        first
        | exact stores.elim
        | exact absurd primitive Bool.false_ne_true
  | custom clss state =>
      cases component <;>
        first
        | exact stores.elim
        | exact absurd primitive Bool.false_ne_true
  | _ => trivial

theorem weight_narrowed (number : Int) : (narrowed number).weight = 1 := by
  unfold narrowed
  split_ifs <;> rfl

mutual

theorem weight_back {value value' : Value}
    (serializable : factory.Serializable value)
    (done : factory.back value = .ok value') :
    value'.weight ≤ value.weight ∧
      (value'.weight = value.weight → factory.Faithful value) := by
  cases value with
  | array component elements =>
      obtain ⟨native, dims, stores, inside⟩ := serializable
      rw [back] at done
      obtain ⟨elements', read, rfl⟩ := map_ok done
      obtain ⟨less, faithful⟩ := weight_backAll inside stores read
      rw [Value.weight, Value.weight]
      exact ⟨by omega, fun whole => faithful (by omega)⟩
  | custom clss state =>
      obtain ⟨⟨kind, is, shaped⟩, inside⟩ := serializable
      have only (faithful : factory.FaithfulAll state)
          (kept : factory.Kept kind state) :
          factory.Faithful (.custom clss state) := by
        refine ⟨faithful, fun kind' is' => ?_⟩
        obtain rfl := Option.some.inj (is.symm.trans is')
        exact kept
      rw [back, is] at done
      dsimp only at done
      split_ifs at done with dated
      · obtain rfl := Except.ok.inj done
        subst dated
        obtain ⟨time, rfl⟩ := shaped
        exact ⟨Nat.le_refl _, fun _ => only ⟨trivial, trivial⟩ trivial⟩
      · obtain ⟨elements, read, done⟩ :=
          Etch.Library.Fallible.bind_eq_ok_iff.mp done
        obtain ⟨state', gathered, rfl⟩ := map_ok done
        have stores : ∀ element ∈ state, Stores .object element :=
          fun _ _ => trivial
        obtain ⟨less, faithful⟩ := weight_backAll inside stores read
        have less' := factory.weight_gather gathered
        rw [Value.weight, Value.weight]
        refine ⟨by omega, fun whole => ?_⟩
        have all : factory.FaithfulAll state := faithful (by omega)
        have narrowed : factory.backAll .object state =
            .ok (factory.narrowAll state) :=
          factory.backAll_of_faithful inside all stores
        obtain rfl := Except.ok.inj (narrowed.symm.trans read)
        exact only all
          (factory.kept_of_gather shaped gathered (by omega))
  | NONE => exact serializable.elim
  | struct type fields => exact serializable.elim
  | _ =>
      obtain rfl := Except.ok.inj done
      refine ⟨Nat.le_of_eq ?_, fun _ => trivial⟩
      first
      | rfl
      | exact weight_narrowed _

theorem weight_backAll {component : JavaClass} {values values' : List Value}
    (serializable : factory.SerializableAll values)
    (stores : ∀ value ∈ values, Stores component value)
    (done : factory.backAll component values = .ok values') :
    weightAll values' ≤ weightAll values ∧
      (weightAll values' = weightAll values →
        factory.FaithfulAll values) := by
  cases values with
  | nil =>
      obtain rfl := Except.ok.inj done
      exact ⟨Nat.le_refl _, fun _ => trivial⟩
  | cons value values =>
      have stores_value := stores _ List.mem_cons_self
      rw [backAll] at done
      obtain ⟨first, read, done⟩ :=
        Etch.Library.Fallible.bind_eq_ok_iff.mp done
      obtain ⟨first', stored, done⟩ :=
        Etch.Library.Fallible.bind_eq_ok_iff.mp done
      obtain ⟨rest, read', done⟩ :=
        Etch.Library.Fallible.bind_eq_ok_iff.mp done
      obtain rfl := Except.ok.inj done
      have head : first'.weight ≤ value.weight ∧
          (first'.weight = value.weight → factory.Faithful value) := by
        cases primitive : component.isPrimitive with
        | true =>
            have faithful :=
              factory.faithful_of_primitive stores_value primitive
            obtain rfl := Except.ok.inj
              (read.symm.trans (factory.back_of_faithful serializable.1
                faithful))
            rw [factory.stored_narrow stores_value, primitive, if_pos rfl]
              at stored
            obtain rfl := Except.ok.inj stored
            exact ⟨Nat.le_refl _, fun _ => faithful⟩
        | false =>
            obtain rfl := stored_reference primitive stored
            exact weight_back serializable.1 read
      obtain ⟨less, faithful⟩ := weight_backAll serializable.2
        (fun value mem => stores value (List.mem_cons_of_mem _ mem)) read'
      rw [weightAll, weightAll]
      exact ⟨by omega, fun whole =>
        ⟨head.2 (by omega), faithful (by omega)⟩⟩

end

end StandardFactory

end Etch.Java
