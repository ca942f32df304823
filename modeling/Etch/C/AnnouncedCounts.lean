import Etch.C.BinaryTaggedDataInput

/-!
# The counts that an input announces

The places where the wire format puts a count, read off an input by a
relation of its own.  The input of the C binding accepts these counts and no
others, and it always comes to an end.
-/

namespace Etch.C

/-! ## Moving through the buffer -/

namespace EtchFlexbuffer

/-- `later` is `fbuf` after at least so many bytes. -/
structure Advances (fbuf later : EtchFlexbuffer) (count : Nat) : Prop where
  datalen : later.datalen = fbuf.datalen
  reached : fbuf.index + count ≤ later.index
  order : later.index ≤ later.datalen

theorem Advances.trans {fbuf later last : EtchFlexbuffer}
    {count count' : Nat} (advances : Advances fbuf later count)
    (advances' : Advances later last count') :
    Advances fbuf last (count + count') where
  datalen := advances'.datalen.trans advances.datalen
  reached := by
    have first := advances.reached
    have second := advances'.reached
    omega
  order := advances'.order

theorem Advances.weaken {fbuf later : EtchFlexbuffer} {count count' : Nat}
    (advances : Advances fbuf later count) (less : count' ≤ count) :
    Advances fbuf later count' where
  datalen := advances.datalen
  reached := by
    have reached := advances.reached
    omega
  order := advances.order

theorem Advances.stay {fbuf : EtchFlexbuffer}
    (order : fbuf.index ≤ fbuf.datalen) : Advances fbuf fbuf 0 :=
  ⟨rfl, Nat.le_refl _, order⟩

theorem Advances.skip {fbuf : EtchFlexbuffer} {count : Nat}
    (inside : fbuf.index + count ≤ fbuf.datalen) :
    Advances fbuf (fbuf.skip count) count :=
  ⟨rfl, Nat.le_refl _, inside⟩

end EtchFlexbuffer

open EtchFlexbuffer

/-- A reader that never steps back and never leaves the data. -/
def Onward {R : Type} (read : Reader R) : Prop :=
  ∀ fbuf : EtchFlexbuffer, fbuf.index ≤ fbuf.datalen →
    Advances fbuf (read fbuf).2 0

section Onward

variable {R S : Type}

theorem onward_pure (result : R) : Onward (pure result) :=
  fun _ order => .stay order

theorem Onward.bind {read : Reader R} {next : R → Reader S}
    (onward : Onward read) (onwards : ∀ result, Onward (next result)) :
    Onward (read >>= next) := fun fbuf order =>
  (onward fbuf order).trans (onwards _ _ (onward fbuf order).order)

theorem Onward.map {read : Reader R} (onward : Onward read)
    (function : R → S) : Onward (function <$> read) :=
  onward

theorem Onward.ite {condition : Prop} [Decidable condition]
    {read other : Reader R} (onward : Onward read) (onward' : Onward other) :
    Onward (if condition then read else other) := by
  split_ifs
  · exact onward
  · exact onward'

theorem getNumber_advances {size : Nat} {fbuf : EtchFlexbuffer}
    (order : fbuf.index ≤ fbuf.datalen) :
    Advances fbuf (getNumber size fbuf).2 0 ∧
      ((getNumber size fbuf).1.isSome →
        Advances fbuf (getNumber size fbuf).2 size) := by
  rw [getNumber, avail_eq order]
  split_ifs with short
  · exact ⟨.stay order, nofun⟩
  · have inside : fbuf.index + size ≤ fbuf.datalen := by omega
    exact ⟨(Advances.skip inside).weaken (Nat.zero_le _), fun _ =>
      Advances.skip inside⟩

theorem onward_getNumber (size : Nat) : Onward (getNumber size) :=
  fun _ order => (getNumber_advances order).1

theorem onward_getByte : Onward getByte :=
  (onward_getNumber 1).map _

/-- A byte that is there is behind. -/
theorem getByte_advances {fbuf fbuf' : EtchFlexbuffer} {byte : Int8}
    (order : fbuf.index ≤ fbuf.datalen)
    (found : getByte fbuf = (some byte, fbuf')) :
    Advances fbuf fbuf' 1 := by
  have moved : (getNumber 1 fbuf).2 = fbuf' := congrArg Prod.snd found
  have there : (getNumber 1 fbuf).1.map Int8.ofNat = some byte :=
    congrArg Prod.fst found
  rw [← moved]
  refine (getNumber_advances order).2 ?_
  rw [← Option.isSome_map, there]
  rfl

theorem onward_getShort : Onward getShort :=
  (onward_getNumber 2).map _

theorem onward_getInt32 : Onward getInt32 :=
  (onward_getNumber 4).map _

theorem getFully_advances {bufsize : Nat} {fbuf : EtchFlexbuffer}
    (order : fbuf.index ≤ fbuf.datalen) (enough : bufsize ≤ fbuf.avail) :
    Advances fbuf (getFully bufsize fbuf).2 bufsize ∧
      (getFully bufsize fbuf).1.length = bufsize := by
  rw [avail_eq order] at enough
  have all := fbuf.datalen_le
  rw [getFully, avail_eq order, Nat.min_eq_left enough]
  refine ⟨.skip (by omega), ?_⟩
  rw [Library.Window.length_window (by omega)]
  omega

end Onward

namespace BinaryTdi

theorem onward_readValueRawint : Onward readValueRawint := by
  refine onward_getByte.bind fun objtype => ?_
  match objtype with
  | none => exact onward_pure _
  | some objtype =>
      refine (onward_pure _).ite (onward_getInt32.ite ?_)
      refine (onward_getShort.bind fun _ => onward_pure _).ite ?_
      exact (onward_getByte.bind fun _ => onward_pure _).ite (onward_pure _)

theorem copyBytes_advances (bytecount : Int32) {fbuf : EtchFlexbuffer}
    (order : fbuf.index ≤ fbuf.datalen) :
    Advances fbuf (copyBytes bytecount fbuf).2
      (((copyBytes bytecount fbuf).1.map List.length).getD 0) := by
  unfold copyBytes
  split_ifs with inside
  · have small := bytecount.toInt_lt
    have size : toSize bytecount.toInt = bytecount.toInt.toNat := by
      unfold toSize
      omega
    obtain ⟨advances, length⟩ :=
      getFully_advances order (size ▸ inside.2)
    exact advances.weaken (Nat.le_of_eq length)
  · exact .stay order

/-- The bytes that are read are behind. -/
theorem readBytes_eq (fbuf : EtchFlexbuffer) :
    readBytes fbuf = (match (readValueRawint fbuf).1 with
      | none => pure none
      | some bytecount => copyBytes bytecount :
        Reader (Option (List UInt8))) (readValueRawint fbuf).2 := rfl

theorem readBytes_advances {fbuf : EtchFlexbuffer}
    (order : fbuf.index ≤ fbuf.datalen) :
    Advances fbuf (readBytes fbuf).2
      (((readBytes fbuf).1.map List.length).getD 0) := by
  have onward := onward_readValueRawint fbuf order
  rw [readBytes_eq]
  cases (readValueRawint fbuf).1 with
  | none => exact onward
  | some bytecount =>
      exact (onward.trans (copyBytes_advances bytecount onward.order)).weaken
        (Nat.le_add_left _ _)

section Headers

variable {T F V O : Type} (vf : ValueFactory T F V O)

theorem onward_readType : Onward (readType vf) :=
  onward_readValueRawint.bind fun _ => onward_pure _

theorem onward_startStruct : Onward (startStruct vf) := by
  refine (onward_readType vf).bind fun thistype => ?_
  cases thistype with
  | none => exact onward_pure _
  | some thistype =>
      exact onward_readValueRawint.bind fun _ => onward_pure _

theorem onward_startMessage : Onward (startMessage vf) := by
  refine onward_getByte.bind fun wireVersion => ?_
  refine (onward_pure _).ite ((onward_readType vf).bind fun typeobj => ?_)
  cases typeobj with
  | none => exact onward_pure _
  | some typeobj =>
      exact onward_readValueRawint.bind fun _ => onward_pure _

theorem onward_startElements (arrayContentType : Int8)
    (customType : Option T) :
    Onward (startElements arrayContentType customType) := by
  refine onward_readValueRawint.bind fun numdimensions => ?_
  refine onward_readValueRawint.bind fun numelements => ?_
  exact (onward_pure _).ite (onward_pure _)

theorem onward_startArray : Onward (startArray vf) := by
  refine onward_getByte.bind fun arrayContentType => ?_
  refine Onward.ite ?_ (onward_startElements _ _)
  refine (onward_readType vf).bind fun customType => ?_
  cases customType with
  | none => exact onward_pure _
  | some customType => exact onward_startElements _ _

theorem onward_readScalar (objtype : Int8) :
    Onward (readScalar objtype : Reader (Option (Value T F O))) := by
  refine (onward_pure _).ite ?_
  refine (onward_pure _).ite ?_
  refine (onward_pure _).ite ?_
  refine (onward_pure _).ite ?_
  refine (onward_getByte.bind fun _ => onward_pure _).ite ?_
  refine (onward_getShort.bind fun _ => onward_pure _).ite ?_
  refine (onward_getInt32.bind fun _ => onward_pure _).ite ?_
  refine (((onward_getNumber 8).map _).bind fun _ => onward_pure _).ite ?_
  refine (((onward_getNumber 4).map _).bind fun _ => onward_pure _).ite ?_
  refine (((onward_getNumber 8).map _).bind fun _ => onward_pure _).ite ?_
  exact (onward_pure _).ite ((onward_pure _).ite (onward_pure _))

end Headers

/-! ## Headers of arrays -/

/-- A reader whose arrays have a dimension and no negative size. -/
def Sized {T : Type} (read : Reader (Option (ArrayHeader T))) : Prop :=
  ∀ fbuf header, (read fbuf).1 = some header →
    0 < header.dim.toInt ∧ 0 ≤ header.initsize.toInt

theorem Sized.bind {T R : Type} {read : Reader R}
    {next : R → Reader (Option (ArrayHeader T))}
    (sized : ∀ result, Sized (next result)) : Sized (read >>= next) :=
  fun _ _ found => sized _ _ _ found

theorem sized_none {T : Type} :
    Sized (pure none : Reader (Option (ArrayHeader T))) :=
  fun _ _ found => nomatch found

theorem sized_startElements {T : Type} (arrayContentType : Int8)
    (customType : Option T) :
    Sized (startElements arrayContentType customType) := by
  refine .bind fun numdimensions => .bind fun numelements => ?_
  show Sized (ite _ _ _)
  split_ifs with refused
  · exact sized_none
  · intro fbuf header found
    obtain ⟨content, -, rfl⟩ := Option.map_eq_some_iff.mp found
    push Not at refused
    exact refused

theorem sized_startArray {T F V O : Type} (vf : ValueFactory T F V O) :
    Sized (startArray vf) := by
  refine .bind fun arrayContentType => ?_
  show Sized (ite _ _ _)
  split_ifs
  · refine .bind fun customType => ?_
    cases customType with
    | none => exact sized_none
    | some customType => exact sized_startElements _ _
  · exact sized_startElements _ _

/-! ## The places of the counts -/

/-- What the bytes behind a type code begin. -/
inductive Opening (T F O : Type) where
  /-- an object without any further ones -/
  | whole (outcome : Outcome (Value T F O))
  | struct (thistype : T) (itemcount : Int32) (fbuf : EtchFlexbuffer)
  | array (header : ArrayHeader T) (fbuf : EtchFlexbuffer)

/-- What is read next. -/
inductive Task (T F V O : Type) where
  | valuex (vtor : Option (EtchValidator V)) (isNoneOk : Bool)
  | keysValues (svtype : T) (items : List (F × Value T F O))
  | values (header : ArrayHeader T) (ev : Option (EtchValidator V))
      (list : List (Value T F O))

section Relation

variable {T F V O : Type} [DecidableEq F] (vf : ValueFactory T F V O)

def opening (objtype : Int8) (fbuf : EtchFlexbuffer) : Opening T F O :=
  if objtype = Typecode.BYTES then
    .whole (readBuffer (fun buf => some (.nativearray (buf.getD []))) fbuf)
  else if objtype = Typecode.STRING then
    .whole (readBuffer (Option.map .string) fbuf)
  else if objtype = Typecode.STRUCT ∨ objtype = Typecode.CUSTOM then
    match startStruct vf fbuf with
    | (none, fbuf) => .whole ⟨none, [], fbuf⟩
    | (some (thistype, itemcount), fbuf) => .struct thistype itemcount fbuf
  else if objtype = Typecode.ARRAY then
    match startArray vf fbuf with
    | (none, fbuf) => .whole ⟨none, [], fbuf⟩
    | (some header, fbuf) => .array header fbuf
  else
    let (object, fbuf) := readScalar objtype fbuf
    .whole ⟨object, [], fbuf⟩

/-- The object that a struct stands for. -/
def ofStruct (objtype : Int8) (object : Option (Value T F O)) :
    Option (Value T F O) :=
  if objtype = Typecode.CUSTOM then
    object.bind vf.reconstituted
  else
    object

/-- The object that is returned. -/
def checked (vtor : Option (EtchValidator V)) (isNoneOk : Bool)
    (objtype : Int8) (object : Option (Value T F O)) :
    Option (Value T F O) :=
  validateValue vf vtor (isNoneOk && objtype = Typecode.NONE) object

/--
The counts of the wire format.  A header of a struct or of an array is
followed by what is inside, up to the end of data or to what is refused.
-/
inductive Announces :
    Task T F V O → EtchFlexbuffer → Outcome (Value T F O) → Prop where
  | short {vtor isNoneOk fbuf fbuf'}
      (ends : getByte fbuf = (none, fbuf')) :
      Announces (.valuex vtor isNoneOk) fbuf ⟨none, [], fbuf'⟩
  | whole {vtor isNoneOk fbuf fbuf' objtype outcome}
      (code : getByte fbuf = (some objtype, fbuf'))
      (begins : opening vf objtype fbuf' = .whole outcome) :
      Announces (.valuex vtor isNoneOk) fbuf
        (outcome.map (checked vf vtor isNoneOk objtype))
  | struct {vtor isNoneOk fbuf fbuf' objtype thistype itemcount inside
        outcome}
      (code : getByte fbuf = (some objtype, fbuf'))
      (begins : opening vf objtype fbuf' =
        .struct thistype itemcount inside)
      (body : Announces (.keysValues thistype []) inside outcome) :
      Announces (.valuex vtor isNoneOk) fbuf
        ((outcome.after [.items itemcount.toInt]).map fun object =>
          checked vf vtor isNoneOk objtype (ofStruct vf objtype object))
  | arrayless {isNoneOk fbuf fbuf' objtype header inside}
      (code : getByte fbuf = (some objtype, fbuf'))
      (begins : opening vf objtype fbuf' = .array header inside) :
      Announces (.valuex none isNoneOk) fbuf
        ⟨none, [.elements header.dim.toInt header.initsize.toInt], inside⟩
  | array {vtor isNoneOk fbuf fbuf' objtype header inside outcome}
      (code : getByte fbuf = (some objtype, fbuf'))
      (begins : opening vf objtype fbuf' = .array header inside)
      (body : Announces
        (.values header (EtchValidator.elementValidator vf vtor) [])
        inside outcome) :
      Announces (.valuex (some vtor) isNoneOk) fbuf
        ((outcome.after
          [.elements header.dim.toInt header.initsize.toInt]).map
            (checked vf (some vtor) isNoneOk objtype))
  | last {svtype items fbuf object accepted fbuf'}
      (key : Announces (.valuex (some .int32) true) fbuf
        ⟨object, accepted, fbuf'⟩)
      (ends : object.all Value.isEod) :
      Announces (.keysValues svtype items) fbuf
        ⟨some (.structvalue svtype items), accepted, fbuf'⟩
  | refused {svtype items fbuf object accepted inside value accepted'
        fbuf'}
      (key : Announces (.valuex (some .int32) true) fbuf
        ⟨some object, accepted, inside⟩)
      (goes : object.isEod = false)
      (member : Announces
        (.valuex (memberVtor vf svtype object.idOf) false) inside
        ⟨value, accepted', fbuf'⟩)
      (fails : memberStored vf svtype items object.idOf value = none) :
      Announces (.keysValues svtype items) fbuf
        ⟨none, accepted ++ accepted', fbuf'⟩
  | member {svtype items fbuf object accepted inside value accepted'
        fbuf' items' outcome}
      (key : Announces (.valuex (some .int32) true) fbuf
        ⟨some object, accepted, inside⟩)
      (goes : object.isEod = false)
      (member : Announces
        (.valuex (memberVtor vf svtype object.idOf) false) inside
        ⟨value, accepted', fbuf'⟩)
      (stores : memberStored vf svtype items object.idOf value =
        some items')
      (others : Announces (.keysValues svtype items') fbuf' outcome) :
      Announces (.keysValues svtype items) fbuf
        (outcome.after (accepted ++ accepted'))
  | unread {header ev list fbuf accepted fbuf'}
      (element : Announces (.valuex ev true) fbuf
        ⟨none, accepted, fbuf'⟩) :
      Announces (.values header ev list) fbuf ⟨none, accepted, fbuf'⟩
  | all {header ev list fbuf object accepted fbuf'}
      (element : Announces (.valuex ev true) fbuf
        ⟨some object, accepted, fbuf'⟩)
      (ends : object.isEod = true) :
      Announces (.values header ev list) fbuf
        ⟨some (.arrayvalue header list), accepted, fbuf'⟩
  | element {header ev list fbuf object accepted inside outcome}
      (element : Announces (.valuex ev true) fbuf
        ⟨some object, accepted, inside⟩)
      (goes : object.isEod = false)
      (others : Announces (.values header ev (list ++ [object])) inside
        outcome) :
      Announces (.values header ev list) fbuf (outcome.after accepted)

/-- The counts that a message announces, the size of the message first. -/
inductive AnnouncesMessage (buf : List UInt8) : List Accepted → Prop where
  | refused {fbuf}
      (start : startMessage vf (newFlexbufferFrom buf) = (none, fbuf)) :
      AnnouncesMessage buf []
  | message {typeobj itemcount fbuf outcome}
      (start : startMessage vf (newFlexbufferFrom buf) =
        (some (typeobj, itemcount), fbuf))
      (body : Announces vf (.keysValues typeobj []) fbuf outcome) :
      AnnouncesMessage buf
        ([.items itemcount.toInt] ++ outcome.accepted)

/-- The reading of a task. -/
def Calls.read (calls : Calls T F V O) : Task T F V O → EtchFlexbuffer →
    Option (Outcome (Value T F O))
  | .valuex vtor isNoneOk => calls.readValuex vtor isNoneOk
  | .keysValues svtype items => calls.readKeysValues svtype items
  | .values header ev list => calls.readValues header ev list

end Relation

end BinaryTdi

end Etch.C
