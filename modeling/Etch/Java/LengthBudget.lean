import Etch.Java.ReadScalars

/-!
# The length budget of the Java `BinaryTaggedDataInput`

The lengths that are accepted never add up to more than the bytes there were.
For what the writer has written they are all accepted, whatever the factory of
the reader says: it is always between two items, and the budget covers what is
declared in those that are left.
-/

namespace Etch.Java.BinaryTaggedDataInput

open Etch.Library.Stateful

variable {S : Type}

/-- The sum of the lengths that `readLength` has accepted. -/
def accepted (lengths : List (Int × Bool)) : Int :=
  ((lengths.filter Prod.snd).map Prod.fst).sum

/-! ## Any bytes -/

/-- What has been accepted and what is left make up the budget. -/
structure Spent (start : Int) (input : Input S) : Prop where
  nonneg : 0 ≤ input.lengthBudget
  total : input.lengthBudget + accepted input.lengths = start

section Spent

variable {start : Int} {α : Type} {vf : ValueFactory S}
  {read : Option Validator → Bool → Reader S Value}

theorem keeps_call (m : EStateM Thrown S α) :
    Keeps (Spent start) (call m) := by
  intro input spent
  unfold call
  cases m input.factory <;> exact ⟨spent.nonneg, spent.total⟩

theorem keeps_get (op : FlexBuffer → Except Exception (α × FlexBuffer)) :
    Keeps (Spent start) (get op : Reader S α) := by
  intro input spent
  unfold get
  cases op input.buf <;> exact ⟨spent.nonneg, spent.total⟩

theorem keeps_throwing (result : Except Thrown α) :
    Keeps (Spent start) (throwing result : Reader S α) := by
  cases result with
  | error thrown => exact .throw thrown
  | ok value => exact .pure value

theorem keeps_avail : Keeps (Spent start) (avail : Reader S Nat) :=
  fun _ spent => spent

theorem keeps_getByte : Keeps (Spent start) (getByte : Reader S Int8) :=
  .bind (keeps_get _) fun _ => .pure _

theorem keeps_takeLength (length : Int) :
    Keeps (Spent start) (takeLength length : Reader S Unit) := by
  intro input spent
  obtain ⟨nonneg, total⟩ := spent
  unfold takeLength
  split_ifs with outside
  · refine ⟨nonneg, ?_⟩
    rw [← total]
    simp [accepted]
  · refine ⟨by dsimp only; omega, ?_⟩
    rw [← total]
    simp only [accepted, List.filter_append, List.filter_cons_of_pos,
      List.filter_nil, List.map_append, List.map_cons, List.map_nil,
      List.sum_append, List.sum_cons, List.sum_nil]
    omega

variable (keeps : ∀ v noneOk, Keeps (Spent start) (read v noneOk))

include keeps

theorem keeps_readIntegerValue :
    Keeps (Spent start) (readIntegerValue read) := by
  refine .bind (keeps _ _) fun value => ?_
  cases value with
  | int value => exact .pure _
  | null => exact .throw _
  | _ => exact .throw _

theorem keeps_readLength : Keeps (Spent start) (readLength read) :=
  .bind (keeps_readIntegerValue keeps) fun length =>
    .bind (keeps_takeLength length) fun _ => .pure _

theorem keeps_readBytes : Keeps (Spent start) (readBytes read) :=
  .bind (keeps_readLength keeps) fun _ => keeps_get _

theorem keeps_readType : Keeps (Spent start) (readType vf read) := by
  refine .bind (keeps _ _) fun obj => ?_
  cases obj with
  | int id => exact .bind (keeps_call _) fun _ => .pure _
  | string name => exact .bind (keeps_call _) fun _ => .pure _
  | _ => exact .throw _

theorem keeps_readField (type : IdName) :
    Keeps (Spent start) (readField vf read type) := by
  refine .bind (keeps _ _) fun obj => ?_
  cases obj with
  | NONE => exact .pure _
  | int id => exact .bind (keeps_call _) fun _ => .pure _
  | string name => exact .bind (keeps_call _) fun _ => .pure _
  | _ => exact .throw _

theorem keeps_startStruct : Keeps (Spent start) (startStruct vf read) :=
  .bind (keeps_readType keeps) fun _ =>
    .bind (keeps_readLength keeps) fun _ => keeps_throwing _

theorem keeps_startMessage : Keeps (Spent start) (startMessage vf read) := by
  refine .bind keeps_getByte fun version => ?_
  exact .ite (.bind (.throw _) fun _ => keeps_startStruct keeps)
    (keeps_startStruct keeps)

theorem keeps_readEntries (bytes : Nat) (sv : StructValue) :
    Keeps (Spent start) (readEntries vf read bytes sv) := by
  induction bytes generalizing sv with
  | zero => exact .throw _
  | succ bytes ih =>
      refine .bind (keeps_readField keeps _) fun key => ?_
      cases key with
      | none => exact .pure _
      | some key =>
          refine .bind (keeps_call _) fun v => ?_
          cases v with
          | some v =>
              exact .bind (keeps _ _) fun value =>
                .bind (keeps_call _) fun sv => ih sv
          | none => exact .bind (keeps _ _) fun _ => ih sv

theorem keeps_readKeysAndValues (sv : StructValue) :
    Keeps (Spent start) (readKeysAndValues vf read sv) :=
  .bind keeps_avail fun bytes => keeps_readEntries keeps bytes sv

theorem keeps_readStruct : Keeps (Spent start) (readStruct vf read) :=
  .bind (keeps_startStruct keeps) fun sv => keeps_readKeysAndValues keeps sv

omit keeps in
theorem keeps_getComponentType (typeCode : Int8)
    (customStructType : Option IdName) (dim : Nat) :
    Keeps (Spent start)
      (getComponentType vf typeCode customStructType dim) := by
  refine .bind ?_ fun _ => .pure _
  cases customStructType with
  | none => exact keeps_throwing _
  | some type => exact .bind (keeps_call _) fun _ => .pure _

theorem keeps_startArray : Keeps (Spent start) (startArray vf read) := by
  have typed (type : Int8) :
      Keeps (Spent start) (readStructType vf read type) :=
    .ite (.bind (keeps_readType keeps) fun _ => .pure _) (.pure _)
  exact .bind keeps_getByte fun type => .bind (typed type) fun _ =>
    .bind (keeps_readIntegerValue keeps) fun _ =>
      .bind (keeps_throwing _) fun _ => .bind (keeps_readLength keeps)
        fun _ => .bind (keeps_getComponentType _ _ _) fun _ => .pure _

theorem keeps_readElements (ev : Option Validator) (bytes : Nat)
    (av : ArrayValue) :
    Keeps (Spent start) (readElements vf read ev bytes av) := by
  induction bytes generalizing av with
  | zero => exact .throw _
  | succ bytes ih =>
      refine .bind (keeps _ _) fun value => ?_
      cases value with
      | NONE => exact .pure _
      | _ => exact .bind (keeps_throwing _) fun av => ih av

theorem keeps_readArray (v : Option Validator) :
    Keeps (Spent start) (readArray vf read v) := by
  refine .bind (keeps_startArray keeps) fun av => ?_
  cases v with
  | none => exact .throw _
  | some v =>
      exact .bind (keeps_throwing _) fun ev => .bind keeps_avail
        fun bytes => keeps_readElements keeps ev bytes av

theorem keeps_readPayload (type : Int8) (v : Option Validator)
    (noneOk : Bool) :
    Keeps (Spent start) (readPayload vf read type v noneOk) := by
  have number {op : FlexBuffer → Except Exception (Int × FlexBuffer)}
      {value : Int → Value} : Keeps (Spent start) (do
        let number ← get op
        throwing (validateValue vf v (value number)) : Reader S Value) :=
    .bind (keeps_get _) fun _ => keeps_throwing _
  unfold readPayload
  refine .ite (keeps_throwing _) (.ite (.ite (.pure _) (keeps_throwing _))
    (.ite (keeps_throwing _) (.ite (keeps_throwing _) (.ite number
      (.ite number (.ite number (.ite number (.ite number (.ite number
        (.ite ?_ (.ite ?_ (.ite (keeps_throwing _) (.ite ?_ (.ite ?_
          (.ite (keeps_throwing _) (.throw _))))))))))))))))
  · exact .bind (keeps_readBytes keeps) fun _ => keeps_throwing _
  · exact .bind (keeps_readArray keeps v) fun _ => keeps_throwing _
  · exact .bind (keeps_readBytes keeps) fun _ => keeps_throwing _
  · exact .bind (keeps_readStruct keeps) fun _ =>
      .bind (keeps_call _) fun _ => keeps_throwing _

omit keeps in
theorem keeps_readValue (bytes : Nat) (v : Option Validator)
    (noneOk : Bool) :
    Keeps (Spent start) (readValue vf bytes v noneOk) := by
  induction bytes generalizing v noneOk with
  | zero => exact .throw _
  | succ bytes ih =>
      exact .bind keeps_getByte fun type => keeps_readPayload ih type v noneOk

omit keeps in
/-- Whatever the bytes are, what is accepted is no more than their number. -/
theorem accepted_le_avail (vf : ValueFactory S) (buf : FlexBuffer)
    (factory : S) :
    accepted (final (readMessage vf buf factory)).lengths ≤ buf.avail := by
  have keeps : Keeps (Spent (buf.avail : Int)) (do
      let msg ← startMessage vf (readValue vf buf.avail)
      readKeysAndValues vf (readValue vf buf.avail) msg) :=
    .bind (keeps_startMessage (keeps_readValue _)) fun msg =>
      keeps_readKeysAndValues (keeps_readValue _) msg
  have start : Spent (buf.avail : Int)
      (⟨buf, buf.avail, factory, []⟩ : Input S) :=
    ⟨Int.natCast_nonneg _, by simp [accepted]⟩
  have spent : Spent (buf.avail : Int)
      (final (readMessage vf buf factory)) := keeps.final start
  have nonneg := spent.nonneg
  have total := spent.total
  omega

end Spent

/-! ## What the writer has written -/

/-- No length has been refused so far. -/
def Unrefused (input : Input S) : Prop :=
  ∀ entry ∈ input.lengths, entry.2 = true

/-- These bytes are left, and the budget covers what they need. -/
structure Covered (bytes : List UInt8) (needed : Nat) (input : Input S) :
    Prop where
  unread : input.buf.unread = bytes
  enough : (needed : Int) ≤ input.lengthBudget
  unrefused : Unrefused input

/-- These items are left, and the budget covers them with some to spare. -/
def Honest (spare : Nat) (items : List Item) : Input S → Prop :=
  Covered (Item.encodeAll items) (Item.declaredAll items + spare)

/-- The reader is between two items. -/
def Between (spare : Nat) (input : Input S) : Prop :=
  ∃ items, Honest spare items input

/-- From one place between items to another. -/
def Tame {α : Type} (spare : Nat) (m : Reader S α) : Prop :=
  Triple (Between spare) m (fun _ => Between spare) Unrefused

/-- What `readValue` does where there are items. -/
structure HonestRead (read : Option Validator → Bool → Reader S Value) :
    Prop where
  item : ∀ spare v noneOk, Tame spare (read v noneOk)
  scalar : ∀ spare s rest v noneOk,
    Triple (Honest spare (.scalar s :: rest)) (read v noneOk)
      (fun _ => Honest spare rest) Unrefused
  int : ∀ (n : Int32) (input : Input S) rest,
    input.buf.unread = Scalar.integerBytes n.toInt ++ rest →
      (∃ buf, buf.unread = rest ∧
        read (some (.integer .int 0)) false input =
          .ok (.int n) { input with buf }) ∨
      ∃ thrown, read (some (.integer .int 0)) false input =
        .error thrown input

section Honest

variable {spare needed : Nat} {bytes : List UInt8} {α β : Type}
  {vf : ValueFactory S} {read : Option Validator → Bool → Reader S Value}

/-! ### What does not read -/

theorem triple_pure (value : α) :
    Triple (Covered bytes needed) (Pure.pure value : Reader S α)
      (fun _ => Covered bytes needed) Unrefused :=
  fun _ covered => covered

theorem triple_throw (thrown : Thrown) (post : α → Input S → Prop) :
    Triple (Covered bytes needed) (MonadExcept.throw thrown : Reader S α)
      post Unrefused :=
  fun _ covered => covered.unrefused

theorem triple_throwing (result : Except Thrown α) :
    Triple (Covered bytes needed) (throwing result : Reader S α)
      (fun _ => Covered bytes needed) Unrefused := by
  cases result with
  | error thrown => exact triple_throw thrown _
  | ok value => exact triple_pure value

theorem triple_call (m : EStateM Thrown S α) :
    Triple (Covered bytes needed) (call m) (fun _ => Covered bytes needed)
      Unrefused := by
  intro input covered
  unfold call
  cases m input.factory with
  | ok value factory =>
      exact ⟨covered.unread, covered.enough, covered.unrefused⟩
  | error thrown factory => exact covered.unrefused

theorem triple_outcome (v : Option Validator) (noneOk : Bool) (s : Scalar) :
    Triple (Covered bytes needed) (outcome vf v noneOk s)
      (fun _ => Covered bytes needed) Unrefused := by
  unfold outcome
  split_ifs
  · exact triple_pure _
  · exact triple_throwing _

/-- Between items means in front of some. -/
theorem Tame.of_covered {m : Reader S α}
    (silent : ∀ bytes needed, Triple (Covered bytes needed) m
      (fun _ => Covered bytes needed) Unrefused) : Tame spare m := by
  rintro input ⟨items, honest⟩
  have after := silent _ _ input honest
  cases done : m input with
  | ok value next =>
      rw [done] at after
      exact ⟨items, after⟩
  | error thrown next =>
      rw [done] at after
      exact after

theorem Tame.pure (value : α) : Tame spare (Pure.pure value : Reader S α) :=
  .of_covered fun _ _ => triple_pure value

theorem Tame.throw (thrown : Thrown) :
    Tame spare (MonadExcept.throw thrown : Reader S α) :=
  .of_covered fun _ _ => triple_throw thrown _

theorem Tame.throwing (result : Except Thrown α) :
    Tame spare (BinaryTaggedDataInput.throwing result : Reader S α) :=
  .of_covered fun _ _ => triple_throwing result

theorem Tame.call (m : EStateM Thrown S α) :
    Tame spare (BinaryTaggedDataInput.call m) :=
  .of_covered fun _ _ => triple_call m

theorem Tame.avail :
    Tame spare (BinaryTaggedDataInput.avail : Reader S Nat) :=
  .of_covered fun _ _ _ covered => covered

theorem Tame.bind {m : Reader S α} {rest : α → Reader S β}
    (first : Tame spare m) (next : ∀ value, Tame spare (rest value)) :
    Tame spare (m >>= rest) :=
  Triple.bind first next

theorem Tame.here {m : Reader S α} (tame : Tame spare m)
    (items : List Item) :
    Triple (Honest spare items) m (fun _ => Between spare) Unrefused :=
  fun input honest => tame input ⟨items, honest⟩

/-- The same bytes, and a budget that may be larger. -/
theorem triple_covers {bytes' : List UInt8} {needed' : Nat} {m : Reader S α}
    {post : α → Input S → Prop}
    (triple : Triple (Covered bytes needed) m post Unrefused)
    (same : bytes' = bytes) (less : needed ≤ needed') :
    Triple (Covered bytes' needed') m post Unrefused := by
  subst same
  intro input ⟨unread, enough, unrefused⟩
  exact triple input ⟨unread, by omega, unrefused⟩

/-! ### Headers -/

/-- A code is read, and then what follows it. -/
theorem triple_coded {code : Int8} {next : Int8 → Reader S α}
    {post : α → Input S → Prop}
    (follows : Triple (Covered bytes needed) (next code) post Unrefused) :
    Triple (Covered (code.toUInt8 :: bytes) needed) (getByte >>= next) post
      Unrefused := by
  intro input ⟨unread, enough, unrefused⟩
  obtain ⟨buf, left, got⟩ := getByte_cons unread
  rw [bind_ok got, Int8.toInt8_toUInt8]
  exact follows _ ⟨left, enough, unrefused⟩

theorem triple_readType (honest : HonestRead read) {s : Scalar}
    {rest : List Item} :
    Triple (Honest spare (.scalar s :: rest)) (readType vf read)
      (fun _ => Honest spare rest) Unrefused := by
  refine Triple.bind (honest.scalar spare s rest _ _) fun value => ?_
  cases value with
  | int id => exact Triple.bind (triple_call _) fun _ => triple_pure _
  | string name => exact Triple.bind (triple_call _) fun _ => triple_pure _
  | _ => exact triple_throw _ _

theorem triple_readIntegerValue (honest : HonestRead read) (s : Scalar)
    {rest : List Item} :
    Triple (Honest spare (.scalar s :: rest)) (readIntegerValue read)
      (fun _ => Honest spare rest) Unrefused := by
  refine Triple.bind (honest.scalar spare s rest _ _) fun value => ?_
  cases value with
  | int id => exact triple_pure _
  | null => exact triple_throw _ _
  | _ => exact triple_throw _ _

theorem toInt_ofNat_of_le {input : Input S} {length : Nat}
    (inside : length ≤ input.buf.unread.length) :
    (Int32.ofNat length).toInt = length := by
  have small := input.buf.avail_lt
  rw [← input.buf.length_unread] at small
  exact Int32.toInt_ofNat_of_lt (by omega)

/-- A length is accepted where there are as many bytes, and it is covered. -/
theorem triple_readLength (honest : HonestRead read) {length : Nat}
    (inside : length ≤ bytes.length) :
    Triple (Covered (Scalar.lengthBytes length ++ bytes) (length + needed))
      (readLength read)
      (fun accepted input => accepted = length ∧
        Covered bytes needed input) Unrefused := by
  intro input ⟨unread, enough, unrefused⟩
  have small : length ≤ input.buf.unread.length := by
    rw [unread, List.length_append]
    omega
  have is := toInt_ofNat_of_le small
  rcases honest.int (Int32.ofNat length) input _ unread with
    ⟨buf, left, got⟩ | ⟨thrown, threw⟩
  · have fits : (Int32.ofNat length).toInt ≤ input.lengthBudget := by
      omega
    rw [readLength_ok got (by omega) fits]
    refine ⟨by omega, left, by dsimp only; omega, ?_⟩
    intro entry mem
    rcases List.mem_append.mp mem with mem | mem
    · exact unrefused entry mem
    · rw [List.mem_singleton.mp mem]
  · have threw : readLength read input = .error thrown input :=
      bind_error (bind_error threw)
    rw [threw]
    exact unrefused

theorem triple_readBytes (honest : HonestRead read)
    {contents : List UInt8} :
    Triple (Covered (Scalar.lengthBytes contents.length ++
        (contents ++ bytes)) (contents.length + needed))
      (readBytes read) (fun _ => Covered bytes needed) Unrefused := by
  refine Triple.bind (triple_readLength honest ?_) fun length => ?_
  · rw [List.length_append]
    omega
  · rintro input ⟨rfl, unread, enough, unrefused⟩
    obtain ⟨buf, full, left⟩ := FlexBuffer.getFully_append unread
    rw [get_ok full]
    exact ⟨left, enough, unrefused⟩

/-- A length that the items behind it make good. -/
theorem triple_itemCount (honest : HonestRead read) {length : Nat}
    {rest : List Item} (inside : length ≤ rest.length) :
    Triple (Honest (spare + length)
        (.scalar (.integer (Int32.ofNat length).toInt64) :: rest))
      (readLength read) (fun _ => Honest spare rest) Unrefused := by
  have size := Item.declaredAll_le_encodeAll rest
  have counted : Triple _ _ (fun _ => Honest spare rest) Unrefused :=
    (triple_readLength honest (Nat.le_trans inside (by omega))).consequence
      (fun _ => id) (fun _ _ => And.right) fun _ => id
  refine triple_covers counted ?_ ?_
  · rw [Item.encodeAll, Item.encode, Scalar.encode_length]
  · simp only [Item.declaredAll, Item.declared, Scalar.declared]
    omega

theorem triple_startStruct (honest : HonestRead read) (type : Scalar)
    {length : Nat} {rest : List Item} (inside : length ≤ rest.length) :
    Triple (Honest (spare + length) (.scalar type ::
        .scalar (.integer (Int32.ofNat length).toInt64) :: rest))
      (startStruct vf read) (fun _ => Honest spare rest) Unrefused :=
  Triple.bind (triple_readType honest) fun _ =>
    Triple.bind (triple_itemCount honest inside) fun _ =>
      triple_throwing _

/-- The header of an array, from its type code on. -/
theorem triple_startArray (honest : HonestRead read)
    (element : ElementType) (dim : Int32) {length : Nat}
    {rest : List Item} (inside : length ≤ rest.length) :
    Triple (Covered (element.encode ++
        Item.encodeAll (.scalar (.integer dim.toInt64) ::
          .scalar (.integer (Int32.ofNat length).toInt64) :: rest))
        (element.declared + (Item.declaredAll rest + (spare + length))))
      (startArray vf read) (fun _ => Honest spare rest) Unrefused := by
  have component (code : Int8) (type : Option IdName) (dim : Nat) :
      Triple (Honest spare rest) (getComponentType vf code type dim)
        (fun _ => Honest spare rest) Unrefused := by
    refine Triple.bind ?_ fun _ => triple_pure _
    cases type with
    | none => exact triple_throwing _
    | some type => exact Triple.bind (triple_call _) fun _ => triple_pure _
  have follows (code : Int8) (type : Option IdName) :
      Triple (Honest (spare + length) (.scalar (.integer dim.toInt64) ::
          .scalar (.integer (Int32.ofNat length).toInt64) :: rest))
        (do
          let dim ← readIntegerValue read
          throwing (checkDim dim)
          let _length ← readLength read
          let component ← getComponentType vf code type (dim.toNat - 1)
          return (⟨component, [], code, type, dim⟩ : ArrayValue))
        (fun _ => Honest spare rest) Unrefused :=
    Triple.bind (triple_readIntegerValue honest _) fun _ =>
      Triple.bind (triple_throwing _) fun _ =>
        Triple.bind (triple_itemCount honest inside) fun _ =>
          Triple.bind (component _ _ _) fun _ => triple_pure _
  have covers : Item.declaredAll (.scalar (.integer dim.toInt64) ::
      .scalar (.integer (Int32.ofNat length).toInt64) :: rest) +
        (spare + length) = Item.declaredAll rest + (spare + length) := by
    simp only [Item.declaredAll, Item.declared, Scalar.declared,
      Nat.zero_add]
  generalize (Item.scalar (.integer dim.toInt64) ::
    .scalar (.integer (Int32.ofNat length).toInt64) :: rest) = items
    at follows covers ⊢
  cases element with
  | native code isNative =>
      have encoded : (ElementType.native code isNative).encode ++
          Item.encodeAll items = code.toUInt8 :: Item.encodeAll items := rfl
      rw [encoded]
      refine triple_coded ?_
      unfold readStructType
      rw [if_neg (not_or.mpr isNative)]
      refine triple_covers (follows code none) rfl ?_
      rw [covers, ElementType.declared, Nat.zero_add]
  | custom type =>
      have encoded : (ElementType.custom type).encode ++
          Item.encodeAll items =
            TypeCode.CUSTOM.toUInt8 ::
              Item.encodeAll (.scalar type :: items) := by
        rw [Item.encodeAll, Item.encode, ElementType.encode,
          List.cons_append]
      rw [encoded]
      refine triple_coded ?_
      unfold readStructType
      rw [if_pos (Or.inl rfl), bind_assoc]
      refine triple_covers (Triple.bind (triple_readType honest)
        fun name => follows TypeCode.CUSTOM (some name)) rfl ?_
      rw [Item.declaredAll, Item.declared, ElementType.declared,
        Nat.add_assoc, covers]

/-! ### Between items -/

theorem tame_readField (honest : HonestRead read) (type : IdName) :
    Tame spare (readField vf read type) := by
  refine .bind (honest.item _ _ _) fun obj => ?_
  cases obj with
  | NONE => exact .pure _
  | int id => exact .bind (.call _) fun _ => .pure _
  | string name => exact .bind (.call _) fun _ => .pure _
  | _ => exact .throw _

theorem tame_readEntries (honest : HonestRead read) (bytes : Nat)
    (sv : StructValue) : Tame spare (readEntries vf read bytes sv) := by
  induction bytes generalizing sv with
  | zero => exact .throw _
  | succ bytes ih =>
      refine .bind (tame_readField honest _) fun key => ?_
      cases key with
      | none => exact .pure _
      | some key =>
          refine .bind (.call _) fun v => ?_
          cases v with
          | some v =>
              exact .bind (honest.item _ _ _) fun value =>
                .bind (.call _) fun sv => ih sv
          | none => exact .bind (honest.item _ _ _) fun _ => ih sv

theorem tame_readKeysAndValues (honest : HonestRead read)
    (sv : StructValue) : Tame spare (readKeysAndValues vf read sv) :=
  .bind .avail fun bytes => tame_readEntries honest bytes sv

theorem tame_readElements (honest : HonestRead read)
    (ev : Option Validator) (bytes : Nat) (av : ArrayValue) :
    Tame spare (readElements vf read ev bytes av) := by
  induction bytes generalizing av with
  | zero => exact .throw _
  | succ bytes ih =>
      refine .bind (honest.item _ _ _) fun value => ?_
      cases value with
      | NONE => exact .pure _
      | _ => exact .bind (.throwing _) fun av => ih av

theorem tame_readValues (honest : HonestRead read) (av : ArrayValue)
    (v : Option Validator) : Tame spare (readValues vf read av v) := by
  cases v with
  | none => exact .throw _
  | some v =>
      exact .bind (.throwing _) fun ev => .bind .avail
        fun bytes => tame_readElements honest ev bytes av

/-! ### Values -/

theorem triple_body_scalar (honest : HonestRead read) (s : Scalar)
    (rest : List Item) (v : Option Validator) (noneOk : Bool) :
    Triple (Honest spare (.scalar s :: rest))
      (readValueBody vf read v noneOk) (fun _ => Honest spare rest)
      Unrefused := by
  have contents (code : Int8) (value : List UInt8 → Value)
      (payload : readPayload vf read code v noneOk = (do
        let bytes ← readBytes read
        throwing (validateValue vf v (value bytes))))
      (contents : List UInt8) :
      Triple (Covered (code.toUInt8 ::
          (Scalar.lengthBytes contents.length ++
            (contents ++ Item.encodeAll rest)))
          (contents.length + (Item.declaredAll rest + spare)))
        (readValueBody vf read v noneOk) (fun _ => Honest spare rest)
        Unrefused := by
    refine triple_coded ?_
    rw [payload]
    exact Triple.bind (triple_readBytes honest) fun _ => triple_throwing _
  have declared : Item.declaredAll (.scalar s :: rest) + spare =
      s.declared + (Item.declaredAll rest + spare) := by
    rw [Item.declaredAll, Item.declared, Nat.add_assoc]
  by_cases plain : (∀ contents, s ≠ .string contents) ∧
      ∀ contents, s ≠ .binary contents
  · rintro input ⟨unread, enough, unrefused⟩
    rw [Item.encodeAll, Item.encode] at unread
    obtain ⟨buf, left, does⟩ :=
      reads_plain unread plain.1 plain.2 v noneOk
    rw [does]
    exact triple_outcome v noneOk s _ ⟨left, by dsimp only; omega, unrefused⟩
  · cases s with
    | string bytes =>
        refine triple_covers (contents TypeCode.STRING
          (fun bytes => .string (vf.newString bytes)) rfl bytes) ?_
          (Nat.le_of_eq declared.symm)
        rw [Item.encodeAll, Item.encode, Scalar.encode, List.cons_append,
          List.append_assoc]
    | binary bytes =>
        refine triple_covers (contents TypeCode.BYTES (fun bytes =>
          .array .byte (bytes.map fun byte => .byte byte.toInt8)) rfl bytes)
          ?_ (Nat.le_of_eq declared.symm)
        rw [Item.encodeAll, Item.encode, Scalar.encode, List.cons_append,
          List.append_assoc]
    | _ => exact absurd ⟨by simp, by simp⟩ plain

theorem triple_body_array (honest : HonestRead read)
    (element : ElementType) (dim : Int32) (elements rest : List Item)
    (v : Option Validator) (noneOk : Bool) :
    Triple (Honest spare (.array element dim elements :: rest))
      (readValueBody vf read v noneOk) (fun _ => Between spare)
      Unrefused := by
  have inside : elements.length ≤
      (elements ++ .scalar .none :: rest).length := by
    rw [List.length_append]
    omega
  have payload : readPayload vf read TypeCode.ARRAY v noneOk = (do
      let av ← readArray vf read v
      throwing (validateValue vf v av.getArray)) := rfl
  have array : Triple _ (readArray vf read v) (fun _ => Between spare) _ :=
    Triple.bind (triple_startArray honest element dim inside) fun av =>
      (tame_readValues honest av v).here _
  rw [Honest, Item.encodeAll_array, Item.declaredAll_array]
  refine triple_coded ?_
  rw [payload]
  refine triple_covers (Triple.bind array fun _ => Tame.throwing _) rfl ?_
  omega

theorem triple_body_struct (honest : HonestRead read) (type : Scalar)
    (fields : List (Scalar × Item)) (rest : List Item)
    (v : Option Validator) (noneOk : Bool) :
    Triple (Honest spare (.struct type fields :: rest))
      (readValueBody vf read v noneOk) (fun _ => Between spare)
      Unrefused := by
  have inside : fields.length ≤
      (Item.flatten fields ++ .scalar .none :: rest).length := by
    have counted := Item.length_le_flatten fields
    rw [List.length_append]
    omega
  have payload : readPayload vf read TypeCode.CUSTOM v noneOk = (do
      let sv ← readStruct vf read
      let value ← call (vf.importCustomValue sv)
      throwing (validateValue vf v value)) := rfl
  have struct : Triple _ (readStruct vf read) (fun _ => Between spare) _ :=
    Triple.bind (triple_startStruct honest type inside) fun sv =>
      (tame_readKeysAndValues honest sv).here _
  rw [Honest, Item.encodeAll_struct, Item.declaredAll_struct]
  refine triple_coded ?_
  rw [payload]
  refine triple_covers (Triple.bind struct fun _ =>
    Tame.bind (.call _) fun _ => .throwing _) rfl ?_
  omega

/-- Whatever item comes next, the reader ends up between two again. -/
theorem HonestRead.body (honest : HonestRead read) :
    HonestRead (readValueBody vf read) := by
  refine ⟨?_, fun _ => triple_body_scalar honest, ?_⟩
  · rintro spare v noneOk input ⟨items, here⟩
    cases items with
    | nil =>
        have threw : readValueBody vf read v noneOk input = _ :=
          bind_error (getByte_nil here.unread)
        rw [threw]
        exact here.unrefused
    | cons item rest =>
        cases item with
        | scalar s =>
            exact (triple_body_scalar honest s rest v noneOk).consequence
              (fun _ => id) (fun _ _ left => ⟨rest, left⟩) (fun _ => id)
              input here
        | array element dim elements =>
            exact triple_body_array honest element dim elements rest v
              noneOk input here
        | struct type fields =>
            exact triple_body_struct honest type fields rest v noneOk input
              here
  · intro n input rest unread
    rw [← Scalar.encode_int] at unread
    obtain ⟨buf, left, does⟩ :=
      reads_integer unread (some (.integer .int 0)) false
    refine .inl ⟨buf, left, does.trans ?_⟩
    rw [outcome_plain (nofun : Scalar.integer n.toInt64 ≠ .none),
      validateValue_int]
    rfl

theorem honest_readValue (vf : ValueFactory S) (bytes : Nat) :
    HonestRead (readValue vf bytes) := by
  induction bytes with
  | zero =>
      refine ⟨fun _ _ _ => Tame.throw _, fun _ _ _ _ _ => triple_throw _ _,
        fun _ _ _ _ => .inr ⟨_, rfl⟩⟩
  | succ bytes ih => exact ih.body

/-- No length in the encoding of a message is refused. -/
theorem unrefused_readMessage (vf : ValueFactory S) (factory : S)
    {type : Scalar} {fields : List (Scalar × Item)} {buf : FlexBuffer}
    (unread : buf.unread = encodeMessage type fields) :
    Unrefused (final (readMessage vf buf factory)) := by
  have honest := honest_readValue vf buf.avail
  have inside : fields.length ≤
      (Item.flatten fields ++ [Item.scalar .none]).length := by
    have counted := Item.length_le_flatten fields
    rw [List.length_append]
    omega
  have start : Triple (Covered (BinaryTaggedData.VERSION.toUInt8 ::
        Item.encodeAll (messageItems type fields))
        (Item.declaredAll (messageItems type fields) + (0 + fields.length)))
      (startMessage vf (readValue vf buf.avail))
      (fun _ => Honest 0 (Item.flatten fields ++ [.scalar .none]))
      Unrefused := by
    refine triple_coded ?_
    rw [if_neg (not_not.mpr rfl)]
    exact triple_startStruct honest type inside
  have between : Triple _ (do
      let msg ← startMessage vf (readValue vf buf.avail)
      readKeysAndValues vf (readValue vf buf.avail) msg)
      (fun _ => Between 0) Unrefused :=
    Triple.bind start fun msg => (tame_readKeysAndValues honest msg).here _
  refine between.final (fun _ _ ⟨_, left⟩ => left.unrefused)
    ⟨unread.trans (encodeMessage_eq type fields), ?_, nofun⟩
  have declared := declaredMessage_le type fields
  rw [← unread, buf.length_unread, declaredMessage_eq] at declared
  change ((Item.declaredAll (messageItems type fields) +
    (0 + fields.length) : Nat) : Int) ≤ buf.avail
  omega

end Honest

/-! ## Both together -/

/-- The lengths in what is written are covered, and no reader refuses one; and
whatever is read, those that are accepted are covered. -/
theorem budget_covers {W : Type} (writer : ValueFactory W)
    (reader : ValueFactory S) (factory : S) :
    (∀ (stringTypeAndField : Bool) (depth : Nat) (msg : StructValue)
      (out after : Output W), out.buf.index = out.buf.length →
      BinaryTaggedDataOutput.writeMessage writer stringTypeAndField depth msg
        out = .ok () after →
      ∃ fields,
        BinaryTaggedDataOutput.WrittenFields writer stringTypeAndField
          msg.type msg.fields fields ∧
        let type := BinaryTaggedDataOutput.nameOf writer stringTypeAndField
          msg.type
        after.buf.contents = out.buf.contents ++ encodeMessage type fields ∧
        ∀ buf : FlexBuffer, buf.unread = encodeMessage type fields →
          declaredMessage type fields ≤ buf.avail ∧
            Unrefused (final (readMessage reader buf factory))) ∧
    ∀ buf : FlexBuffer,
      accepted (final (readMessage reader buf factory)).lengths ≤
        buf.avail := by
  refine ⟨?_, fun buf => accepted_le_avail reader buf factory⟩
  intro named depth msg out after atEnd wrote
  obtain ⟨_, ⟨fields, written, rfl⟩, contents, _⟩ :=
    BinaryTaggedDataOutput.writeMessage_emits writer named depth msg _ _ _
      atEnd wrote
  refine ⟨fields, written, contents, fun buf unread => ⟨?_, ?_⟩⟩
  · rw [← buf.length_unread, unread]
    exact declaredMessage_le _ _
  · exact unrefused_readMessage reader factory unread

/-- A factory that has no types, and takes any object in every field. -/
def untyped : ValueFactory Unit where
  classes := ⟨fun _ _ => false, fun _ => []⟩
  level := .FULL
  getTypeById _ := return none
  getTypeByName _ := return none
  getFieldById _ _ := return none
  getFieldByName _ _ := return none
  getValidator _ _ := return some (.object 1)
  getComponentType _ := return none
  getCustomStructType _ := return none
  exportCustomValue _ := return none
  importCustomValue _ := return .null
  getBytes s := s.map fun c => c.toUInt8
  newString bytes := bytes.map fun byte => byte.toUInt16

/-- A message of the type 1, with two bytes in its field 2. -/
def pair : StructValue :=
  ⟨⟨1, text "1"⟩, [(⟨2, text "2"⟩, .array .object [.byte 5, .byte 6])]⟩

theorem budget_covers_pair :
    ∃ fields, declaredMessage (.integer 1) fields ≤ 12 ∧
      ∀ buf : FlexBuffer,
        buf.unread = [3, 1, 1, 2, 145, 150, 1, 2, 5, 6, 129, 129] →
          Unrefused (final (readMessage untyped buf ())) := by
  have bytes : (final (BinaryTaggedDataOutput.writeMessage untyped false 3
      pair ⟨FlexBuffer.empty, ()⟩)).buf.contents =
        [3, 1, 1, 2, 145, 150, 1, 2, 5, 6, 129, 129] := by decide +kernel
  cases wrote : BinaryTaggedDataOutput.writeMessage untyped false 3 pair
      ⟨FlexBuffer.empty, ()⟩ with
  | error thrown after =>
      have done : (BinaryTaggedDataOutput.writeMessage untyped false 3 pair
        ⟨FlexBuffer.empty, ()⟩ matches .ok _ _) = true := by decide +kernel
      rw [wrote] at done
      exact nomatch done
  | ok value after =>
      obtain ⟨fields, _, contents, covered⟩ :=
        (budget_covers untyped untyped ()).1 false 3 pair _ after rfl wrote
      have whole : encodeMessage (.integer 1) fields =
          [3, 1, 1, 2, 145, 150, 1, 2, 5, 6, 129, 129] := by
        rw [wrote] at bytes
        exact contents.symm.trans bytes
      rw [← whole]
      refine ⟨fields, ?_, fun buf unread => (covered buf unread).2⟩
      have length := congrArg List.length whole
      exact (declaredMessage_le _ fields).trans_eq length

end Etch.Java.BinaryTaggedDataInput
