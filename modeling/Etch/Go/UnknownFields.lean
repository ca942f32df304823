import Etch.Go.ReadableItems

/-!
# Fields that the Go receiver does not know

The loop for the fields of a message ends at the first key that is not the
`INT` of a field of the type, as if it were the end.  So the message has the
known fields in front of it, and it has all of them when none is behind.
-/

namespace Etch.Go

open Etch.Library.Reading
open BinaryTaggedDataInput

/-! ## Messages -/

/-- A message as it is encoded. -/
structure EncodedMessage where
  type : Integer
  count : Integer
  fields : List (Integer × Item)
  /-- a message has one value for a field -/
  distinct : (fields.map fun field => field.1.id).Nodup

namespace EncodedMessage

variable {O : Type} (vf : ValueFactory O)

def encode (message : EncodedMessage) : List UInt8 :=
  [TypeCode.VERSION.toUInt8] ++
    ((message.type.encode ++ message.count.encode) ++
      (Item.encodeFields message.fields ++ endCode))

/-- The fields in front of the first key that the decoder does not take for
a field of the type. -/
def front (message : EncodedMessage) (t : EtchType O) :
    List (Integer × Item) :=
  message.fields.takeWhile fun field => (field.1.int?.bind t.Fields).isSome

/-- The fields from that key on. -/
def back (message : EncodedMessage) (t : EtchType O) :
    List (Integer × Item) :=
  message.fields.dropWhile fun field => (field.1.int?.bind t.Fields).isSome

/-- The decoder returns this, in any buffer with the message. -/
def Yields (message : EncodedMessage)
    (result : Option (StructValue O)) : Prop :=
  ∃ fuel, ∀ more, fuel ≤ more → ∀ fb : FlexBuffer, fb.Valid →
    fb.unread = message.encode →
      ∃ after, readMessage vf more fb = some (result, after)

theorem front_append_back (message : EncodedMessage) (t : EtchType O) :
    message.front t ++ message.back t = message.fields :=
  List.takeWhile_append_dropWhile

variable {vf}

theorem Yields.unique {message : EncodedMessage}
    {first second : Option (StructValue O)}
    (yields : message.Yields vf first)
    (yields' : message.Yields vf second) :
    first = second := by
  obtain ⟨fuel, reads⟩ := yields
  obtain ⟨fuel', reads'⟩ := yields'
  have valid : FlexBuffer.newFlexBuffer.Valid := ⟨by decide, by decide⟩
  have unread : (FlexBuffer.newFlexBuffer.writeBack message.encode).unread =
      message.encode := by
    rw [FlexBuffer.unread_writeBack valid]
    simp [FlexBuffer.unread, FlexBuffer.newFlexBuffer]
  have valid' := FlexBuffer.valid_writeBack valid message.encode
  obtain ⟨after, done⟩ :=
    reads (max fuel fuel') (Nat.le_max_left _ _) _ valid' unread
  obtain ⟨after', done'⟩ :=
    reads' (max fuel fuel') (Nat.le_max_right _ _) _ valid' unread
  have same := done.symm.trans done'
  exact (Prod.mk.inj (Option.some.inj same)).1

/-- What is read from the front of the message is returned. -/
theorem yields_of_settles {message : EncodedMessage}
    {bytes : List UInt8} (rest : List UInt8)
    {result : Option (StructValue O)}
    (settles : Settles Holds (readMessage vf) bytes result)
    (encoded : message.encode = bytes ++ rest) :
    message.Yields vf result := by
  obtain ⟨fuel, reads⟩ := settles
  refine ⟨fuel, fun more enough fb valid unread => ?_⟩
  obtain ⟨after, done, _⟩ :=
    reads more enough fb rest ⟨valid, unread.trans encoded⟩
  exact ⟨after, done⟩

/-- Without the `INT` of a known type there is no message. -/
theorem yields_none {message : EncodedMessage}
    (unread : message.type.int?.bind vf.GetTypeById = none) :
    message.Yields vf none := by
  have untyped := settles_readType vf message.type
  rw [unread] at untyped
  have starts : Settles Holds (fun fuel => startStruct vf (calls vf fuel))
      message.type.encode none :=
    untyped.bind_nil (.pure _)
  have version := Settles.of_reads (reads_readByte TypeCode.VERSION)
  have starts : Settles Holds (fun fuel => startMessage vf (calls vf fuel))
      ([TypeCode.VERSION.toUInt8] ++ message.type.encode) none :=
    version.bind starts
  have reads : Settles Holds (readMessage vf)
      ([TypeCode.VERSION.toUInt8] ++ message.type.encode) none :=
    starts.bind_nil (.pure _)
  refine yields_of_settles (message.count.encode ++
    (Item.encodeFields message.fields ++ endCode)) reads ?_
  simp only [encode, List.append_assoc]

/-- The fields in front are the fields of the message that is returned. -/
theorem yields_front {message : EncodedMessage} {t : EtchType O}
    {known : Fields O}
    (found : message.type.int?.bind vf.GetTypeById = some t)
    (meant : Item.knownFields? vf t (message.front t) = some known)
    (readable : ReadableFields vf t (message.front t)) :
    message.Yields vf (some ⟨t, known⟩) := by
  have distinct : ((message.front t).map fun field => field.1.id).Nodup :=
    message.distinct.sublist
      ((List.takeWhile_sublist _).map _)
  obtain ⟨stop, rest, stops, encoded⟩ : ∃ stop rest,
      Settles Holds (fun fuel => readField (calls vf fuel) t) stop none ∧
        Item.encodeFields (message.back t) ++ endCode = stop ++ rest := by
    cases back : message.back t with
    | nil =>
        refine ⟨endCode, [], settles_readField_end vf t, ?_⟩
        rw [List.append_nil]
        rfl
    | cons entry fields =>
        have unread : ¬ (entry.1.int?.bind t.Fields).isSome := by
          have first := List.head?_dropWhile_not
            (fun field : Integer × Item =>
              (field.1.int?.bind t.Fields).isSome) message.fields
          rw [← EncodedMessage.back, back] at first
          simpa using first
        have stops := settles_readField vf t entry.1
        rw [Option.not_isSome_iff_eq_none.mp unread] at stops
        refine ⟨_, entry.2.encode ++ (Item.encodeFields fields ++ endCode),
          stops, ?_⟩
        simp only [Item.encodeFields, List.append_assoc]
  have fields := settles_fields vf [] readable meant distinct nofun stops
  have version := Settles.of_reads (reads_readByte TypeCode.VERSION)
  have starts : Settles Holds (fun fuel => startMessage vf (calls vf fuel))
      ([TypeCode.VERSION.toUInt8] ++
        (message.type.encode ++ message.count.encode)) (some ⟨t, []⟩) :=
    version.bind (settles_startStruct vf found message.count)
  have reads : Settles Holds (readMessage vf) _ (some ⟨t, known⟩) :=
    starts.bind (fields.map some)
  refine yields_of_settles rest reads ?_
  rw [encode, ← front_append_back message t, Item.encodeFields_append]
  simp only [List.append_assoc, encoded]

/-- The message has exactly the known fields if and only if its type is an
`INT` and no known field is behind the first key that is not the `INT` of a
field. -/
theorem yields_known_iff {message : EncodedMessage} {t : EtchType O}
    {known : Fields O}
    (found : vf.GetTypeById message.type.id = some t)
    (meant : Item.knownFields? vf t message.fields = some known)
    (readable : ReadableFields vf t (message.front t)) :
    message.Yields vf (some ⟨t, known⟩) ↔
      message.type.int?.isSome ∧
        ∀ field ∈ message.back t, t.known? field.1.id = none := by
  rw [← message.front_append_back t] at meant
  obtain ⟨inFront, behind, meantFront, meantBack, rfl⟩ :=
    Item.knownFields?_append vf meant
  rw [← Item.knownFields?_nil_iff vf meantBack]
  cases int : message.type.int? with
  | none =>
      have nothing : message.Yields vf none :=
        yields_none (by rw [int, Option.bind_none])
      constructor
      · intro yields
        exact nomatch yields.unique nothing
      · intro both
        exact nomatch both.1
  | some id =>
      have typed : message.type.int?.bind vf.GetTypeById = some t := by
        rw [int, Option.bind_some, ← Integer.id_of_int? int, found]
      have returned := yields_front typed meantFront readable
      constructor
      · intro yields
        have same := yields.unique returned
        injection same with same
        injection same with _ same
        exact ⟨rfl, List.append_right_eq_self.mp same⟩
      · rintro ⟨_, rfl⟩
        rwa [List.append_nil]

/-! ## A known and an unknown field -/

/-- A type that has the field 2 only. -/
def second : EtchType Unit where
  Id := 1
  Fields := fun id => if id = 2 then some ⟨2⟩ else none
  fields_id := by
    intro id field found
    split at found
    · rename_i same
      cases found
      exact same.symm
    · exact nomatch found
  Validators := fun id => if id = 2 then some fun _ => true else none
  Helper := none
  NewArray := none

def seconds : ValueFactory Unit where
  GetTypeById := fun id => if id = 1 then some second else none
  assignable := fun _ _ => false

def knownFirst : EncodedMessage where
  type := .int 1
  count := .tiny 2 (by decide)
  fields := [(.int 2, .integer (.tiny 7 (by decide))),
    (.int 9, .integer (.tiny 5 (by decide)))]
  distinct := by decide

def unknownFirst : EncodedMessage where
  type := .int 1
  count := .tiny 2 (by decide)
  fields := [(.int 9, .integer (.tiny 5 (by decide))),
    (.int 2, .integer (.tiny 7 (by decide)))]
  distinct := by decide

theorem knownFirst_yields :
    knownFirst.Yields seconds (some ⟨second, [(⟨2⟩, .int8 7)]⟩) := by
  have readable : ReadableFields seconds second (knownFirst.front second) :=
    ⟨rfl, ⟨trivial, .int8 7, rfl, fun _ => true, rfl, rfl⟩, trivial⟩
  refine (yields_known_iff rfl rfl readable).mpr ⟨rfl, ?_⟩
  intro field member
  cases List.mem_singleton.mp member
  rfl

/-- The known field is lost behind the unknown one. -/
theorem unknownFirst_loses :
    seconds.GetTypeById unknownFirst.type.id = some second ∧
      Item.knownFields? seconds second unknownFirst.fields =
        some [(⟨2⟩, .int8 7)] ∧
      ¬ unknownFirst.Yields seconds
        (some ⟨second, [(⟨2⟩, .int8 7)]⟩) := by
  refine ⟨rfl, rfl, fun yields => ?_⟩
  have returned : unknownFirst.Yields seconds (some ⟨second, []⟩) :=
    yields_front rfl rfl trivial
  have same := yields.unique returned
  injection same with same
  injection same with _ same
  exact nomatch same

end EncodedMessage

end Etch.Go
