import Etch.Java.ItemReading

/-!
# The end marker in what is read

`NONE` ends the entries of a struct and the elements of an array.  Where it
stands for the value of a field, the validator of the field decides, and one
for objects accepts it.
-/

namespace Etch.Java

open Etch.Library.Stateful

/-- The marker is in an object, at any depth. -/
inductive Value.Marked : Value → Prop where
  | marker : Marked .NONE
  | element {component : JavaClass} {elements : List Value} {element : Value}
      (inside : element ∈ elements) (marked : Marked element) :
      Marked (.array component elements)
  | field {type : IdName} {fields : List (Field × Value)}
      {entry : Field × Value} (inside : entry ∈ fields)
      (marked : Marked entry.2) : Marked (.struct type fields)
  | part {clss : String} {state : List Value} {part : Value}
      (inside : part ∈ state) (marked : Marked part) :
      Marked (.custom clss state)

namespace Value

theorem not_marked_of_integer {value : Value} {number : Int}
    (is : value.integer? = some number) : ¬value.Marked := by
  intro marked
  cases marked <;> exact nomatch is

theorem Same.marked {result value : Value} (same : result.Same value)
    (marked : result.Marked) : value.Marked := by
  cases same with
  | refl => exact marked
  | integer is is' => exact absurd marked (not_marked_of_integer is)

end Value

namespace StructValue

/-- The marker is in one of the fields, at any depth. -/
def Marked (sv : StructValue) : Prop :=
  ∃ entry ∈ sv.fields, entry.2.Marked

theorem not_marked_new {type : IdName} {length : Int} {sv : StructValue}
    (made : new type length = .ok sv) : ¬sv.Marked := by
  unfold new at made
  split_ifs at made
  obtain rfl := Except.ok.inj made
  rintro ⟨entry, inside, _⟩
  exact nomatch inside

theorem marked_set {sv : StructValue} {key : Field} {value : Value}
    (marked : (sv.set key value).Marked) : sv.Marked ∨ value.Marked := by
  obtain ⟨entry, inside, marked⟩ := marked
  unfold set at inside
  split_ifs at inside
  · obtain ⟨entry', inside', rfl⟩ := List.mem_map.mp inside
    split_ifs at marked
    · exact .inr marked
    · exact .inl ⟨entry', inside', marked⟩
  · rcases List.mem_append.mp inside with before | added
    · exact .inl ⟨entry, before, marked⟩
    · obtain rfl := List.mem_singleton.mp added
      exact .inr marked

theorem marked_remove {sv : StructValue} {key : Field}
    (marked : (sv.remove key).Marked) : sv.Marked := by
  obtain ⟨entry, inside, marked⟩ := marked
  exact ⟨entry, (List.mem_filter.mp inside).1, marked⟩

theorem returns_put {S : Type} (vf : ValueFactory S) {sv : StructValue}
    {key : Field} {value : Value} (unmarked : ¬sv.Marked)
    (unmarked' : ¬value.Marked) :
    Returns (fun sv' => ¬sv'.Marked) (sv.put vf key value) := by
  have set : ¬(sv.set key value).Marked := by
    intro marked
    rcases marked_set marked with before | added
    · exact unmarked before
    · exact unmarked' added
  by_cases present : value = .null
  · subst present
    exact .pure fun marked => unmarked (marked_remove marked)
  · rw [sv.put_of_ne_null vf key present]
    refine .ite (.andThen fun v => ?_) (.pure set)
    cases v with
    | none => exact .ite (.andThen fun _ => .pure set) (.pure set)
    | some v => exact .ite (.andThen fun _ => .pure set) (.pure set)

end StructValue

namespace ArrayValue

theorem marked_stored {isSuper : String → JavaClass → Bool}
    {component : JavaClass} {value value' : Value}
    (is : stored isSuper component value = .ok value')
    (marked : value'.Marked) : value.Marked := by
  unfold stored at is
  dsimp only at is
  split at is
  · -- an array of numbers holds numbers
    split at is <;> try split at is
    all_goals cases is
    all_goals exact nomatch marked
  · split at is
    · obtain rfl := Except.ok.inj is
      exact marked
    · split_ifs at is
      obtain rfl := Except.ok.inj is
      exact marked

theorem not_marked_add {isSuper : String → JavaClass → Bool}
    {av av' : ArrayValue} {value : Value}
    (added : av.add isSuper value = .ok av')
    (unmarked : ¬av.getArray.Marked) (unmarked' : ¬value.Marked) :
    ¬av'.getArray.Marked := by
  unfold add at added
  cases is : stored isSuper av.component value with
  | error thrown =>
      rw [is] at added
      exact nomatch added
  | ok value' =>
      rw [is] at added
      obtain rfl := Except.ok.inj added
      rintro (_ | ⟨inside, marked⟩)
      rcases List.mem_append.mp inside with before | last
      · exact unmarked (.element before marked)
      · obtain rfl := List.mem_singleton.mp last
        exact unmarked' (marked_stored is marked)

end ArrayValue

namespace BinaryTaggedDataInput

variable {S : Type} {vf : ValueFactory S}

/-! ## What the reader returns -/

theorem marked_validateValue {v : Option Validator} {value result : Value}
    (valid : validateValue vf v value = .ok result)
    (marked : result.Marked) : value.Marked := by
  cases v with
  | none =>
      obtain rfl := Except.ok.inj valid
      exact nomatch marked
  | some w =>
      cases value with
      | null =>
          obtain rfl := Except.ok.inj valid
          exact nomatch marked
      | _ => exact (Validator.same_of_validateValue valid).marked marked

/-- The validator accepts the marker. -/
def Takes (vf : ValueFactory S) (v : Option Validator) : Prop :=
  ∃ w, v = some w ∧ w.validate vf.classes .NONE = true

/-- A value that `readValue` may return: with a marker in it, it is the
marker, where that is allowed. -/
def Proper (vf : ValueFactory S) (v : Option Validator) (noneOk : Bool)
    (value : Value) : Prop :=
  value.Marked → value = .NONE ∧ (noneOk = true ∨ Takes vf v)

theorem returns_validateValue (v : Option Validator) (noneOk : Bool)
    {value : Value} (unmarked : ¬value.Marked) :
    Returns (Proper vf v noneOk)
      (throwing (validateValue vf v value) : Reader S Value) := by
  intro input result after done
  cases valid : validateValue vf v value with
  | error thrown =>
      rw [valid] at done
      exact nomatch done
  | ok value' =>
      rw [valid] at done
      obtain ⟨rfl, rfl⟩ := EStateM.Result.ok.inj done
      intro marked
      exact absurd (marked_validateValue valid marked) unmarked

theorem returns_validateNone (v : Option Validator) (noneOk : Bool) :
    Returns (Proper vf v noneOk)
      (throwing (validateValue vf v .NONE) : Reader S Value) := by
  intro input result after done
  cases v with
  | none =>
      obtain ⟨rfl, rfl⟩ := EStateM.Result.ok.inj done
      exact nofun
  | some w =>
      change (throwing (w.validateValue vf.classes .NONE) : Reader S Value)
        input = _ at done
      cases valid : w.validateValue vf.classes .NONE with
      | error thrown =>
          rw [valid] at done
          exact nomatch done
      | ok value' =>
          rw [valid] at done
          obtain ⟨rfl, rfl⟩ := EStateM.Result.ok.inj done
          intro _
          have same := Validator.same_of_validateValue valid
          have accepted := Validator.validate_iff.mpr ⟨_, valid⟩
          cases same with
          | refl => exact ⟨rfl, .inr ⟨w, rfl, accepted⟩⟩
          | integer _ is => exact nomatch is

/-- No validator of a field accepts the marker. -/
def FieldsRefuse (vf : ValueFactory S) : Prop :=
  ∀ type key before v after,
    vf.getValidator type key before = .ok (some v) after →
      v.validate vf.classes .NONE = false

/-- No object is imported as the marker, or with one that is not in its
struct. -/
structure ImportsNoMarker (vf : ValueFactory S) : Prop where
  noEnd : ImportsNoEnd vf
  unmarked : ∀ sv before value after,
    vf.importCustomValue sv before = .ok value after →
      ¬sv.Marked → ¬value.Marked

theorem returns_call {α : Type} {good : α → Prop} {m : EStateM Thrown S α}
    (returns : Returns good m) : Returns good (call m) := by
  intro input value after done
  unfold call at done
  cases got : m input.factory with
  | error thrown factory =>
      rw [got] at done
      exact nomatch done
  | ok value' factory =>
      rw [got] at done
      obtain ⟨rfl, rfl⟩ := EStateM.Result.ok.inj done
      exact returns _ _ _ got

theorem returns_throwing {α : Type} {good : α → Prop}
    {result : Except Thrown α}
    (returns : ∀ value, result = .ok value → good value) :
    Returns good (throwing result : Reader S α) := by
  cases result with
  | error thrown => exact .throw thrown
  | ok value => exact .pure (returns value rfl)

section Methods

variable {read : Option Validator → Bool → Reader S Value}
  (refuse : FieldsRefuse vf) (imports : ImportsNoMarker vf)
  (proper : ∀ v noneOk, Returns (Proper vf v noneOk) (read v noneOk))

theorem returns_startStruct :
    Returns (fun sv => ¬sv.Marked) (startStruct vf read) :=
  .andThen fun _ => .andThen fun _ =>
    returns_throwing fun _ made => StructValue.not_marked_new made

include refuse proper

theorem returns_readEntries (bytes : Nat) {sv : StructValue}
    (unmarked : ¬sv.Marked) :
    Returns (fun sv' => ¬sv'.Marked) (readEntries vf read bytes sv) := by
  induction bytes generalizing sv with
  | zero => exact .throw _
  | succ bytes ih =>
      refine .andThen fun key => ?_
      cases key with
      | none => exact .pure unmarked
      | some key =>
          have found : Returns (fun v : Option Validator => ¬Takes vf v)
              (call (vf.getValidator sv.type key)) := by
            refine returns_call fun before v after got => ?_
            rintro ⟨w, rfl, accepted⟩
            rw [refuse _ _ _ _ _ got] at accepted
            exact nomatch accepted
          refine .bind found fun v refused => ?_
          cases v with
          | none => exact .andThen fun _ => ih unmarked
          | some v =>
              refine .bind (proper (some v) false) fun value is => ?_
              have unmarked' : ¬value.Marked := by
                intro marked
                rcases (is marked).2 with allowed | takes
                · exact nomatch allowed
                · exact refused takes
              exact .bind (returns_call
                (StructValue.returns_put vf unmarked unmarked'))
                fun _ unmarked => ih unmarked

theorem returns_readStruct :
    Returns (fun sv => ¬sv.Marked) (readStruct vf read) :=
  .bind returns_startStruct fun _ unmarked =>
    .andThen fun bytes => returns_readEntries refuse proper bytes unmarked

omit refuse in
theorem returns_readElements (ev : Option Validator) (bytes : Nat)
    {av : ArrayValue} (unmarked : ¬av.getArray.Marked) :
    Returns (fun av' => ¬av'.getArray.Marked)
      (readElements vf read ev bytes av) := by
  induction bytes generalizing av with
  | zero => exact .throw _
  | succ bytes ih =>
      refine .bind (proper ev true) fun value is => ?_
      have next (unmarked' : ¬value.Marked) :
          Returns (fun av' => ¬av'.getArray.Marked) (do
            let av ← throwing (av.add vf.classes.isSuper value)
            readElements vf read ev bytes av) := by
        refine .bind (returns_throwing fun av' added => ?_)
          fun _ unmarked => ih unmarked
        exact ArrayValue.not_marked_add added unmarked unmarked'
      have plain (other : value ≠ .NONE) : ¬value.Marked :=
        fun marked => other (is marked).1
      cases value with
      | NONE => exact .pure unmarked
      | _ => exact next (plain nofun)

omit refuse in
theorem returns_readArray (v : Option Validator) :
    Returns (fun av => ¬av.getArray.Marked) (readArray vf read v) := by
  have start : Returns (fun av : ArrayValue => ¬av.getArray.Marked)
      (startArray vf read) := by
    refine .andThen fun _ => .andThen fun _ => .andThen fun _ =>
      .andThen fun _ => .andThen fun _ => .andThen fun component => ?_
    refine .pure ?_
    rintro (_ | ⟨inside, _⟩)
    exact nomatch inside
  refine .bind start fun av unmarked => ?_
  cases v with
  | none => exact .throw _
  | some v =>
      exact .andThen fun ev => .andThen fun bytes =>
        returns_readElements proper ev bytes unmarked

include imports

theorem returns_readPayload (type : Int8) (v : Option Validator)
    (noneOk : Bool) :
    Returns (Proper vf v noneOk) (readPayload vf read type v noneOk) := by
  have number {α : Type} {m : Reader S α} {value : α → Value}
      (plain : ∀ n, ¬(value n).Marked) : Returns (Proper vf v noneOk) (do
        let n ← m
        throwing (validateValue vf v (value n)) : Reader S Value) :=
    .andThen fun n => returns_validateValue v noneOk (plain n)
  have marker : Returns (Proper vf v noneOk) (if noneOk then return .NONE
      else throwing (validateValue vf v .NONE) : Reader S Value) := by
    cases noneOk with
    | true => exact .pure fun _ => ⟨rfl, .inl rfl⟩
    | false => exact returns_validateNone v false
  unfold readPayload
  refine .ite (returns_validateValue _ _ nofun) (.ite marker
    (.ite (returns_validateValue _ _ nofun)
      (.ite (returns_validateValue _ _ nofun)
        (.ite (number fun _ => nofun) (.ite (number fun _ => nofun)
          (.ite (number fun _ => nofun) (.ite (number fun _ => nofun)
            (.ite (number fun _ => nofun) (.ite (number fun _ => nofun)
              (.ite ?_ (.ite ?_ (.ite (returns_validateValue _ _ nofun)
                (.ite (number fun _ => nofun) (.ite ?_
                  (.ite (returns_validateValue _ _ nofun)
                    (.throw _))))))))))))))))
  · refine .andThen fun bytes => returns_validateValue _ _ ?_
    rintro (_ | ⟨inside, marked⟩)
    obtain ⟨byte, _, rfl⟩ := List.mem_map.mp inside
    exact nomatch marked
  · exact .bind (returns_readArray proper v) fun av unmarked =>
      returns_validateValue _ _ unmarked
  · refine .bind (returns_readStruct refuse proper) fun sv unmarked => ?_
    exact .bind (returns_call fun before value after got =>
      imports.unmarked _ _ _ _ got unmarked)
      fun value unmarked => returns_validateValue _ _ unmarked

omit proper

theorem returns_readValue (bytes : Nat) (v : Option Validator)
    (noneOk : Bool) :
    Returns (Proper vf v noneOk) (readValue vf bytes v noneOk) := by
  induction bytes generalizing v noneOk with
  | zero => exact .throw _
  | succ bytes ih =>
      exact .andThen fun type =>
        returns_readPayload refuse imports ih type v noneOk

end Methods

/-- No message that is read has the marker in it. -/
def NeverLeaks (vf : ValueFactory S) : Prop :=
  ∀ buf factory msg after, readMessage vf buf factory = .ok msg after →
    ¬msg.Marked

theorem neverLeaks_of_fieldsRefuse (refuse : FieldsRefuse vf)
    (imports : ImportsNoMarker vf) : NeverLeaks vf := by
  intro buf factory msg after
  have proper := returns_readValue refuse imports buf.avail
  have returns : Returns (fun msg => ¬StructValue.Marked msg) (do
      let msg ← startMessage vf (readValue vf buf.avail)
      readKeysAndValues vf (readValue vf buf.avail) msg) := by
    refine .bind ?_ fun msg unmarked => .andThen fun bytes =>
      returns_readEntries refuse proper bytes unmarked
    refine .andThen fun version => .ite ?_ returns_startStruct
    exact .andThen fun _ => returns_startStruct
  exact returns _ msg after

/-! ## Where the marker is let in -/

/-- The field that a scalar stands for has a validator that accepts the
marker, in a message of the type that another one stands for. -/
def Offers (vf : ValueFactory S) (factory : S) (type field : Scalar) : Prop :=
  ∃ t typed key keyed v validated sv stored,
    type.readType vf factory = .ok t typed ∧
    field.readField vf t typed = .ok key keyed ∧
    vf.getValidator t key keyed = .ok (some v) validated ∧
    v.validate vf.classes .NONE = true ∧
    (⟨t, []⟩ : StructValue).put vf key .NONE validated = .ok sv stored

theorem validateValue_marker {v : Validator}
    (accepted : v.validate vf.classes .NONE = true) :
    validateValue vf (some v) .NONE = .ok .NONE := by
  obtain ⟨result, valid⟩ := Validator.validateValue_ok accepted
  have same := Validator.same_of_validateValue valid
  cases same with
  | refl => exact valid
  | integer _ is => exact nomatch is

theorem put_marker {sv sv' : StructValue} {key : Field} {before after : S}
    (stored : sv.put vf key .NONE before = .ok sv' after) : sv'.Marked := by
  have set : sv' = sv.set key .NONE := by
    have returns : Returns (ε := Thrown) (· = sv.set key .NONE)
        (sv.put vf key .NONE) := by
      refine .ite (.andThen fun v => ?_) (.pure rfl)
      cases v with
      | none => exact .ite (.andThen fun _ => .pure rfl) (.pure rfl)
      | some v => exact .ite (.andThen fun _ => .pure rfl) (.pure rfl)
    exact returns _ _ _ stored
  rw [set]
  unfold StructValue.set
  split_ifs with present
  · obtain ⟨entry, inside, is⟩ := List.any_eq_true.mp present
    refine ⟨(key, .NONE), List.mem_map.mpr ⟨entry, inside, ?_⟩, .marker⟩
    exact if_pos (of_decide_eq_true is)
  · exact ⟨(key, .NONE), List.mem_append_right _ (List.mem_singleton.mpr rfl),
      .marker⟩

/-- The items of a message whose one field is the marker. -/
theorem readItems_marker {factory : S} {type field : Scalar} :
    (∃ msg after, readItems vf type [(field, .scalar .none)] factory =
      .ok msg after ∧ msg.Marked) ↔ Offers vf factory type field := by
  constructor
  · rintro ⟨msg, after, done, marked⟩
    obtain ⟨t, typed, gotType, done⟩ := bind_eq_ok_iff.mp done
    obtain ⟨sv, _, made, done⟩ := bind_eq_ok_iff.mp done
    rw [List.length_singleton] at made
    obtain ⟨is, rfl⟩ := returned_ok made
    obtain rfl : (⟨t, []⟩ : StructValue) = sv :=
      Except.ok.inj ((StructValue.new_one t).symm.trans is)
    rw [readFields] at done
    obtain ⟨key, keyed, gotKey, done⟩ := bind_eq_ok_iff.mp done
    obtain ⟨v, validated, gotValidator, done⟩ := bind_eq_ok_iff.mp done
    cases v with
    | none =>
        obtain ⟨ignored, middle, _, done⟩ := bind_eq_ok_iff.mp done
        rw [readFields] at done
        obtain ⟨rfl, rfl⟩ := EStateM.Result.ok.inj done
        obtain ⟨entry, inside, _⟩ := marked
        exact nomatch inside
    | some v =>
        obtain ⟨value, middle, valid, done⟩ := bind_eq_ok_iff.mp done
        obtain ⟨sv, stored, put, done⟩ := bind_eq_ok_iff.mp done
        rw [Item.read, Scalar.read, if_neg fun both => Bool.false_ne_true both.2]
          at valid
        obtain ⟨is, rfl⟩ := returned_ok valid
        have accepted := Validator.validate_iff.mpr ⟨value, is⟩
        obtain rfl : Value.NONE = value :=
          Except.ok.inj ((validateValue_marker accepted).symm.trans is)
        exact ⟨t, _, key, keyed, v, _, sv, stored, gotType, gotKey,
          gotValidator, accepted, put⟩
  · rintro ⟨t, typed, key, keyed, v, validated, sv, stored, gotType, gotKey,
      gotValidator, accepted, put⟩
    refine ⟨sv, stored, ?_, put_marker put⟩
    refine bind_eq_ok_iff.mpr ⟨t, typed, gotType, ?_⟩
    have made : returned (StructValue.new t
        [(field, Item.scalar .none)].length) typed =
          .ok ⟨t, []⟩ typed := by
      rw [List.length_singleton]
      exact congrFun (congrArg returned (StructValue.new_one t)) typed
    refine bind_eq_ok_iff.mpr ⟨⟨t, []⟩, typed, made, ?_⟩
    rw [readFields]
    refine bind_eq_ok_iff.mpr ⟨key, keyed, gotKey, ?_⟩
    refine bind_eq_ok_iff.mpr ⟨some v, validated, gotValidator, ?_⟩
    refine bind_eq_ok_iff.mpr ⟨.NONE, validated, ?_, ?_⟩
    · rw [Item.read, Scalar.read, if_neg fun both => Bool.false_ne_true both.2]
      change returned (validateValue vf (some v) .NONE) validated = _
      rw [validateValue_marker accepted]
      rfl
    · exact bind_eq_ok_iff.mpr ⟨sv, stored, put, by rw [readFields]; rfl⟩

/-- A message whose one field is the marker is read with it, just where the
factory offers it that field. -/
theorem readMessage_marker (noEnd : ImportsNoEnd vf) {factory : S}
    {type field : Scalar} (plain : field ≠ .none) {buf : FlexBuffer}
    (unread : buf.unread = encodeMessage type [(field, .scalar .none)]) :
    (∃ msg after, readMessage vf buf factory = .ok msg after ∧
      msg.Marked) ↔ Offers vf factory type field := by
  have clean : CleanFields [(field, .scalar .none)] :=
    ⟨plain, trivial, trivial⟩
  have reads := readMessage_encodeMessage noEnd factory clean unread
  rw [← readItems_marker]
  cases items : readItems vf type [(field, .scalar .none)] factory with
  | ok msg next =>
      rw [items] at reads
      obtain ⟨after, done, _, _⟩ := reads
      rw [done]
      constructor
      · rintro ⟨msg', after', same, marked⟩
        obtain ⟨rfl, rfl⟩ := EStateM.Result.ok.inj same
        exact ⟨msg, next, rfl, marked⟩
      · rintro ⟨msg', after', same, marked⟩
        obtain ⟨rfl, rfl⟩ := EStateM.Result.ok.inj same
        exact ⟨msg, after, rfl, marked⟩
  | error thrown next =>
      rw [items] at reads
      obtain ⟨after, threw, _⟩ := reads
      rw [threw]
      constructor
      · rintro ⟨msg, after, same, _⟩
        exact nomatch same
      · rintro ⟨msg, after, same, _⟩
        exact nomatch same

/--
Where no validator of a field accepts the marker, it is in no message that is
read; and a message that has it for its one field is read with it where the
validator of that field accepts it.
-/
theorem marker_leaks_where_accepted (vf : ValueFactory S)
    (imports : ImportsNoMarker vf) :
    (FieldsRefuse vf → NeverLeaks vf) ∧
    ∀ factory type field (buf : FlexBuffer), field ≠ .none →
      buf.unread = encodeMessage type [(field, .scalar .none)] →
        ((∃ msg after, readMessage vf buf factory = .ok msg after ∧
          msg.Marked) ↔ Offers vf factory type field) :=
  ⟨fun refuse => neverLeaks_of_fieldsRefuse refuse imports,
    fun _ _ _ _ plain unread =>
      readMessage_marker imports.noEnd plain unread⟩

/-- A factory whose fields take any object. -/
def objects : ValueFactory Unit where
  classes := ⟨fun _ _ => false, fun _ => []⟩
  level := .FULL
  getTypeById _ := return none
  getTypeByName _ := return none
  getFieldById _ _ := return none
  getFieldByName _ _ := return none
  getValidator _ _ := return some (.object 0)
  getComponentType _ := return none
  getCustomStructType _ := return none
  exportCustomValue _ := return none
  importCustomValue _ := return .null
  getBytes s := s.map fun c => c.toUInt8
  newString bytes := bytes.map fun byte => byte.toUInt16

theorem objects_importsNoMarker : ImportsNoMarker objects where
  noEnd sv before value after imported := by
    obtain ⟨rfl, rfl⟩ := EStateM.Result.ok.inj imported
    exact nofun
  unmarked sv before value after imported _ := by
    obtain ⟨rfl, rfl⟩ := EStateM.Result.ok.inj imported
    exact nofun

theorem objects_offers :
    Offers objects () (.integer 1) (.integer 2) :=
  ⟨⟨1, text "1"⟩, (), ⟨2, text "2"⟩, (), .object 0, (), _, (), rfl, rfl, rfl,
    rfl, rfl⟩

/-- A message of the type 1, with the marker in its field 2. -/
def marker : FlexBuffer :=
  .adopt [3, 1, 1, 2, 129, 129] (by decide)

theorem marker_leaks_where_accepted_objects :
    ∃ msg after, readMessage objects marker () = .ok msg after ∧
      msg.Marked :=
  ((marker_leaks_where_accepted objects objects_importsNoMarker).2 ()
    (.integer 1) (.integer 2) marker nofun rfl).mpr objects_offers

theorem leaked_marker :
    ¬∀ (S : Type) (vf : ValueFactory S), NeverLeaks vf := by
  intro never
  have plain : Scalar.integer 2 ≠ .none := nofun
  have unread : marker.unread =
      encodeMessage (.integer 1) [(.integer 2, .scalar .none)] := rfl
  obtain ⟨msg, after, done, marked⟩ :=
    (readMessage_marker objects_importsNoMarker.noEnd plain unread).mpr
      objects_offers
  exact never Unit objects marker () msg after done marked

end BinaryTaggedDataInput

end Etch.Java
