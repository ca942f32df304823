import Etch.C.AnnouncedCounts
import Etch.Library.Fueled

/-!
# What the C binding accepts

The reading of an input accepts the counts that the input announces.
-/

namespace Etch.C

open EtchFlexbuffer
open Etch.Library.Fueled

namespace BinaryTdi

section Following

variable {T F V O : Type} (vf : ValueFactory T F V O)

/-! ## One call -/

theorem readObject_eq (next : Calls T F V O)
    (vtor : Option (EtchValidator V)) (objtype : Int8)
    (fbuf : EtchFlexbuffer) :
    readObject vf next vtor objtype fbuf =
      match opening vf objtype fbuf with
      | .whole outcome => some outcome
      | .struct thistype itemcount inside =>
          (next.readKeysValues thistype [] inside).map fun outcome =>
            (outcome.after [.items itemcount.toInt]).map
              (ofStruct vf objtype)
      | .array header inside =>
          match vtor with
          | none => some ⟨none,
              [.elements header.dim.toInt header.initsize.toInt], inside⟩
          | some vtor =>
              (next.readValues header (vtor.elementValidator vf) []
                inside).map
                (.after
                  [.elements header.dim.toInt header.initsize.toInt]) := by
  unfold readObject opening
  by_cases bytes : objtype = Typecode.BYTES
  · simp only [if_pos bytes]
  by_cases string : objtype = Typecode.STRING
  · simp only [if_neg bytes, if_pos string]
  by_cases struct : objtype = Typecode.STRUCT
  · subst struct
    have plain : ofStruct vf Typecode.STRUCT = id := rfl
    simp only [if_neg bytes, if_neg string, true_or, if_true, readStruct,
      plain]
    rcases startStruct vf fbuf with ⟨_ | ⟨thistype, itemcount⟩, inside⟩
    · rfl
    · rfl
  by_cases array : objtype = Typecode.ARRAY
  · subst array
    simp only [if_neg bytes, if_neg string, if_neg struct, if_true,
      readArray]
    rcases startArray vf fbuf with ⟨_ | header, inside⟩
    · rfl
    · rfl
  by_cases custom : objtype = Typecode.CUSTOM
  · subst custom
    have made : ofStruct vf Typecode.CUSTOM =
        (Option.bind · vf.reconstituted) := rfl
    simp only [if_neg bytes, if_neg string, if_neg struct, if_neg array,
      or_true, if_true, readStruct, made]
    rcases startStruct vf fbuf with ⟨_ | ⟨thistype, itemcount⟩, inside⟩
    · rfl
    · change Option.map _ (Option.map _ _) = _
      rw [Option.map_map]
      rfl
  · simp only [if_neg bytes, if_neg string, if_neg struct, if_neg array,
      if_neg custom, if_neg (not_or.mpr ⟨struct, custom⟩)]
    rfl

theorem readValuex_short (next : Calls T F V O)
    (vtor : Option (EtchValidator V)) (isNoneOk : Bool)
    {fbuf fbuf' : EtchFlexbuffer} (ends : getByte fbuf = (none, fbuf')) :
    readValuex vf next vtor isNoneOk fbuf = some ⟨none, [], fbuf'⟩ := by
  rw [readValuex, ends]

theorem readValuex_coded (next : Calls T F V O)
    (vtor : Option (EtchValidator V)) (isNoneOk : Bool)
    {fbuf fbuf' : EtchFlexbuffer} {objtype : Int8}
    (code : getByte fbuf = (some objtype, fbuf')) :
    readValuex vf next vtor isNoneOk fbuf =
      (readObject vf next vtor objtype fbuf').map
        (.map (checked vf vtor isNoneOk objtype)) := by
  rw [readValuex, code]
  rfl

/-- Nothing is returned of what has no validator. -/
theorem checked_none (isNoneOk : Bool) (objtype : Int8)
    (object : Option (Value T F O)) :
    checked vf none isNoneOk objtype object = none := by
  cases object with
  | none => rfl
  | some object => rfl

/-! ## All calls -/

variable [DecidableEq F]

/-- What is read is what the input announces. -/
theorem announces_of_read {fuel : Nat} {task : Task T F V O}
    {fbuf : EtchFlexbuffer} {outcome : Outcome (Value T F O)}
    (run : (calls vf fuel).read task fbuf = some outcome) :
    Announces vf task fbuf outcome := by
  induction fuel generalizing task fbuf outcome with
  | zero => cases task <;> exact nomatch run
  | succ fuel ih =>
      cases task with
      | valuex vtor isNoneOk =>
          change readValuex vf (calls vf fuel) vtor isNoneOk fbuf = _ at run
          match code : getByte fbuf with
          | (none, fbuf') =>
              rw [readValuex_short vf _ _ _ code] at run
              cases run
              exact .short code
          | (some objtype, fbuf') =>
              rw [readValuex_coded vf _ _ _ code, readObject_eq] at run
              match begins : opening vf objtype fbuf' with
              | .whole object =>
                  rw [begins] at run
                  cases run
                  exact .whole code begins
              | .struct thistype itemcount inside =>
                  rw [begins] at run
                  obtain ⟨object, run', rfl⟩ := Option.map_eq_some_iff.mp run
                  obtain ⟨body, run'', rfl⟩ := Option.map_eq_some_iff.mp run'
                  exact .struct code begins
                    (@ih (.keysValues thistype []) _ _ run'')
              | .array header inside =>
                  rw [begins] at run
                  cases vtor with
                  | none =>
                      cases run
                      rw [Outcome.map, checked_none]
                      exact .arrayless code begins
                  | some vtor =>
                      obtain ⟨object, run', rfl⟩ :=
                        Option.map_eq_some_iff.mp run
                      obtain ⟨body, run'', rfl⟩ :=
                        Option.map_eq_some_iff.mp run'
                      exact .array code begins
                        (@ih (.values header _ []) _ _ run'')
      | keysValues svtype items =>
          change readKeysValues vf (calls vf fuel) svtype items fbuf = _
            at run
          obtain ⟨⟨thisobj, accepted, inside⟩, key, run⟩ :=
            Option.bind_eq_some_iff.mp run
          have key := @ih (.valuex _ _) _ _ key
          cases thisobj with
          | none =>
              cases run
              exact .last key rfl
          | some object =>
              dsimp only at run
              by_cases ends : object.isEod
              · rw [if_pos ends] at run
                cases run
                exact .last key ends
              · rw [if_neg ends] at run
                obtain ⟨⟨value, accepted', fbuf'⟩, member, run⟩ :=
                  Option.bind_eq_some_iff.mp run
                have member := @ih (.valuex _ _) _ _ member
                dsimp only at run
                have goes := Bool.eq_false_of_not_eq_true ends
                match stores : memberStored vf svtype items object.idOf
                    value with
                | none =>
                    rw [stores] at run
                    cases run
                    exact .refused key goes member stores
                | some items' =>
                    rw [stores] at run
                    obtain ⟨others, run', rfl⟩ :=
                      Option.map_eq_some_iff.mp run
                    exact .member key goes member stores
                      (@ih (.keysValues _ _) _ _ run')
      | values header ev list =>
          change readValues (calls vf fuel) header ev list fbuf = _ at run
          obtain ⟨⟨thisobj, accepted, inside⟩, element, run⟩ :=
            Option.bind_eq_some_iff.mp run
          have element := @ih (.valuex _ _) _ _ element
          cases thisobj with
          | none =>
              cases run
              exact .unread element
          | some object =>
              dsimp only at run
              by_cases ends : object.isEod
              · rw [if_pos ends] at run
                cases run
                exact .all element ends
              · rw [if_neg ends] at run
                obtain ⟨others, run', rfl⟩ := Option.map_eq_some_iff.mp run
                exact .element element (Bool.eq_false_of_not_eq_true ends)
                  (@ih (.values _ _ _) _ _ run')

/-- What the input announces is read with enough calls. -/
theorem settles_of_announces {task : Task T F V O} {fbuf : EtchFlexbuffer}
    {outcome : Outcome (Value T F O)}
    (announces : Announces vf task fbuf outcome) :
    Settles (fun fuel => (calls vf fuel).read task fbuf) outcome := by
  induction announces with
  | short ends =>
      exact .succ ⟨0, fun more _ => readValuex_short vf _ _ _ ends⟩
  | whole code begins =>
      refine .succ ⟨0, fun more _ => ?_⟩
      change readValuex vf (calls vf more) _ _ _ = _
      rw [readValuex_coded vf _ _ _ code, readObject_eq, begins]
      rfl
  | @struct _ _ _ _ _ thistype _ inside outcome code begins _ ih =>
      obtain ⟨fuel, done⟩ := ih
      refine .succ ⟨fuel, fun more order => ?_⟩
      have body : (calls vf more).readKeysValues thistype [] inside =
          some outcome := done more order
      change readValuex vf (calls vf more) _ _ _ = _
      rw [readValuex_coded vf _ _ _ code, readObject_eq, begins]
      dsimp only
      rw [body]
      rfl
  | arrayless code begins =>
      refine .succ ⟨0, fun more _ => ?_⟩
      change readValuex vf (calls vf more) _ _ _ = _
      rw [readValuex_coded vf _ _ _ code, readObject_eq, begins]
      dsimp only
      rw [Option.map_some, Outcome.map, checked_none]
  | @array vtor _ _ _ _ header inside outcome code begins _ ih =>
      obtain ⟨fuel, done⟩ := ih
      refine .succ ⟨fuel, fun more order => ?_⟩
      have body : (calls vf more).readValues header
          (vtor.elementValidator vf) [] inside = some outcome :=
        done more order
      change readValuex vf (calls vf more) _ _ _ = _
      rw [readValuex_coded vf _ _ _ code, readObject_eq, begins]
      dsimp only
      rw [body]
      rfl
  | @last svtype items fbuf object accepted fbuf' _ ends ih =>
      obtain ⟨fuel, done⟩ := ih
      refine .succ ⟨fuel, fun more order => ?_⟩
      have key : (calls vf more).readValuex (some .int32) true fbuf =
          some ⟨object, accepted, fbuf'⟩ := done more order
      change readKeysValues vf (calls vf more) _ _ _ = _
      rw [readKeysValues, key]
      cases object with
      | none => rfl
      | some object => exact if_pos ends
  | @refused svtype items fbuf object accepted inside value accepted' fbuf'
      _ goes _ fails ih ih' =>
      obtain ⟨fuel, done⟩ := ih
      obtain ⟨fuel', done'⟩ := ih'
      refine .succ ⟨max fuel fuel', fun more order => ?_⟩
      have key : (calls vf more).readValuex (some .int32) true fbuf =
          some ⟨some object, accepted, inside⟩ := done more (by omega)
      have member : (calls vf more).readValuex
          (memberVtor vf svtype object.idOf) false inside =
          some ⟨value, accepted', fbuf'⟩ := done' more (by omega)
      change readKeysValues vf (calls vf more) _ _ _ = _
      rw [readKeysValues, key]
      dsimp only [Option.bind_eq_bind, Option.bind_some]
      rw [goes, member]
      dsimp only [Option.bind_some]
      rw [fails]
      rfl
  | @member svtype items fbuf object accepted inside value accepted' fbuf'
      items' outcome _ goes _ stores _ ih ih' ih'' =>
      obtain ⟨fuel, done⟩ := ih
      obtain ⟨fuel', done'⟩ := ih'
      obtain ⟨fuel'', done''⟩ := ih''
      refine .succ ⟨max (max fuel fuel') fuel'', fun more order => ?_⟩
      have key : (calls vf more).readValuex (some .int32) true fbuf =
          some ⟨some object, accepted, inside⟩ := done more (by omega)
      have member : (calls vf more).readValuex
          (memberVtor vf svtype object.idOf) false inside =
          some ⟨value, accepted', fbuf'⟩ := done' more (by omega)
      have others : (calls vf more).readKeysValues svtype items' fbuf' =
          some outcome := done'' more (by omega)
      change readKeysValues vf (calls vf more) _ _ _ = _
      rw [readKeysValues, key]
      dsimp only [Option.bind_eq_bind, Option.bind_some]
      rw [goes, member]
      dsimp only [Option.bind_some]
      rw [stores]
      dsimp only
      rw [others]
      rfl
  | @unread header ev list fbuf accepted fbuf' _ ih =>
      obtain ⟨fuel, done⟩ := ih
      refine .succ ⟨fuel, fun more order => ?_⟩
      have element : (calls vf more).readValuex ev true fbuf =
          some ⟨none, accepted, fbuf'⟩ := done more order
      change readValues (calls vf more) _ _ _ _ = _
      rw [readValues, element]
      rfl
  | @all header ev list fbuf object accepted fbuf' _ ends ih =>
      obtain ⟨fuel, done⟩ := ih
      refine .succ ⟨fuel, fun more order => ?_⟩
      have element : (calls vf more).readValuex ev true fbuf =
          some ⟨some object, accepted, fbuf'⟩ := done more order
      change readValues (calls vf more) _ _ _ _ = _
      rw [readValues, element]
      exact if_pos ends
  | @element header ev list fbuf object accepted inside outcome _ goes _
      ih ih' =>
      obtain ⟨fuel, done⟩ := ih
      obtain ⟨fuel', done'⟩ := ih'
      refine .succ ⟨max fuel fuel', fun more order => ?_⟩
      have element : (calls vf more).readValuex ev true fbuf =
          some ⟨some object, accepted, inside⟩ := done more (by omega)
      have others : (calls vf more).readValues header ev
          (list ++ [object]) inside = some outcome := done' more (by omega)
      change readValues (calls vf more) _ _ _ _ = _
      rw [readValues, element]
      dsimp only [Option.bind_eq_bind, Option.bind_some]
      rw [goes, others]
      rfl

/-- An input announces one thing only. -/
theorem Announces.unique {task : Task T F V O} {fbuf : EtchFlexbuffer}
    {outcome other : Outcome (Value T F O)}
    (announces : Announces vf task fbuf outcome)
    (announces' : Announces vf task fbuf other) : outcome = other :=
  (settles_of_announces vf announces).unique
    (settles_of_announces vf announces')

/-! ## Coming to an end -/

/-- The bytes that are copied out of the buffer. -/
def copied (accepted : List Accepted) : Nat :=
  (accepted.map Accepted.copied).sum

theorem copied_append (accepted accepted' : List Accepted) :
    copied (accepted ++ accepted') = copied accepted + copied accepted' := by
  simp [copied]

/-- What the input looks at before it accepts a count. -/
def Accepted.Lawful : Accepted → Prop
  | items _ => True
  | elements numdimensions numelements =>
      0 < numdimensions ∧ 0 ≤ numelements
  | bytes bytecount => 0 ≤ bytecount

/-- The buffer is behind what was copied, and what was looked at is so. -/
structure Passed (fbuf : EtchFlexbuffer) (accepted : List Accepted)
    (later : EtchFlexbuffer) : Prop where
  advances : Advances fbuf later (copied accepted)
  lawful : ∀ one ∈ accepted, one.Lawful

theorem Passed.of_advances {fbuf later : EtchFlexbuffer}
    (advances : Advances fbuf later 0) : Passed fbuf [] later :=
  ⟨advances, nofun⟩

theorem Passed.trans {fbuf inside later : EtchFlexbuffer}
    {accepted accepted' : List Accepted}
    (passed : Passed fbuf accepted inside)
    (passed' : Passed inside accepted' later) :
    Passed fbuf (accepted ++ accepted') later where
  advances := by
    rw [copied_append]
    exact passed.advances.trans passed'.advances
  lawful one mem :=
    (List.mem_append.mp mem).elim (passed.lawful one) (passed'.lawful one)

omit [DecidableEq F] in
theorem passed_readBuffer
    (found : Option (List UInt8) → Option (Value T F O))
    {fbuf : EtchFlexbuffer} (order : fbuf.index ≤ fbuf.datalen) :
    Passed fbuf (readBuffer found fbuf).accepted
      (readBuffer found fbuf).flexbuf := by
  have advances := readBytes_advances order
  unfold readBuffer
  generalize readBytes fbuf = read at advances ⊢
  match read with
  | (none, later) => exact .of_advances advances
  | (some buf, later) =>
      exact ⟨advances, fun one mem => by
        cases List.mem_singleton.mp mem
        exact Int.natCast_nonneg _⟩

/-- What an opening is behind. -/
def Opening.Passed (fbuf : EtchFlexbuffer) : Opening T F O → Prop
  | whole outcome => BinaryTdi.Passed fbuf outcome.accepted outcome.flexbuf
  | struct _ _ inside => Advances fbuf inside 0
  | array header inside => Advances fbuf inside 0 ∧
      0 < header.dim.toInt ∧ 0 ≤ header.initsize.toInt

omit [DecidableEq F] in
theorem opening_passed (objtype : Int8) {fbuf : EtchFlexbuffer}
    (order : fbuf.index ≤ fbuf.datalen) :
    (opening vf objtype fbuf).Passed fbuf := by
  unfold opening
  split_ifs
  · exact passed_readBuffer _ order
  · exact passed_readBuffer _ order
  · have advances := onward_startStruct vf fbuf order
    generalize startStruct vf fbuf = read at advances ⊢
    match read with
    | (none, later) => exact .of_advances advances
    | (some (thistype, itemcount), later) => exact advances
  · have advances := onward_startArray vf fbuf order
    have sized := sized_startArray vf fbuf
    generalize startArray vf fbuf = read at advances sized ⊢
    match read with
    | (none, later) => exact .of_advances advances
    | (some header, later) => exact ⟨advances, sized header rfl⟩
  · exact .of_advances (onward_readScalar objtype fbuf order)

/-- A type code is behind, and then what follows it. -/
theorem Passed.coded {fbuf fbuf' later : EtchFlexbuffer} {objtype : Int8}
    {accepted : List Accepted} (order : fbuf.index ≤ fbuf.datalen)
    (code : getByte fbuf = (some objtype, fbuf'))
    (passed : Passed fbuf' accepted later) :
    Passed fbuf accepted later ∧ fbuf.index < later.index := by
  have byte := getByte_advances order code
  refine ⟨(Passed.of_advances (byte.weaken (Nat.zero_le _))).trans passed, ?_⟩
  have reached := byte.reached
  have reached' := passed.advances.reached
  omega

theorem passed_struct {fbuf inside later : EtchFlexbuffer}
    {accepted : List Accepted} {itemcount : Int}
    (advances : Advances fbuf inside 0)
    (passed : Passed inside accepted later) :
    Passed fbuf ([.items itemcount] ++ accepted) later := by
  refine Passed.trans ⟨advances, fun one mem => ?_⟩ passed
  cases List.mem_singleton.mp mem
  exact trivial

theorem passed_array {fbuf inside later : EtchFlexbuffer}
    {accepted : List Accepted} {numdimensions numelements : Int}
    (advances : Advances fbuf inside 0)
    (sized : 0 < numdimensions ∧ 0 ≤ numelements)
    (passed : Passed inside accepted later) :
    Passed fbuf ([.elements numdimensions numelements] ++ accepted)
      later := by
  refine Passed.trans ⟨advances, fun one mem => ?_⟩ passed
  cases List.mem_singleton.mp mem
  exact sized

/-- The input is behind what it announces, and a value is not nothing. -/
theorem passed_of_announces {task : Task T F V O} {fbuf : EtchFlexbuffer}
    {outcome : Outcome (Value T F O)}
    (announces : Announces vf task fbuf outcome)
    (order : fbuf.index ≤ fbuf.datalen) :
    Passed fbuf outcome.accepted outcome.flexbuf ∧
      (∀ vtor isNoneOk, task = .valuex vtor isNoneOk →
        outcome.result.isSome → fbuf.index < outcome.flexbuf.index) := by
  induction announces with
  | @short _ _ fbuf _ ends =>
      have advances := onward_getByte fbuf order
      rw [ends] at advances
      exact ⟨.of_advances advances, fun _ _ _ => nofun⟩
  | @whole _ _ _ fbuf' objtype _ code begins =>
      have passed := opening_passed vf objtype
        (getByte_advances order code).order
      rw [begins] at passed
      exact ⟨(passed.coded order code).1, fun _ _ _ _ =>
        (passed.coded order code).2⟩
  | @struct _ _ _ fbuf' objtype _ itemcount _ _ code begins _ ih =>
      have opened := opening_passed vf objtype
        (getByte_advances order code).order
      rw [begins] at opened
      have passed := @passed_struct _ _ _ _ itemcount.toInt opened
        (ih opened.order).1
      exact ⟨(passed.coded order code).1, fun _ _ _ _ =>
        (passed.coded order code).2⟩
  | @arrayless _ _ fbuf' objtype header inside code begins =>
      have opened := opening_passed vf objtype
        (getByte_advances order code).order
      rw [begins] at opened
      have passed := passed_array opened.1 opened.2
        (.of_advances (.stay opened.1.order))
      exact ⟨(passed.coded order code).1, fun _ _ _ => nofun⟩
  | @array _ _ _ fbuf' objtype _ _ _ code begins _ ih =>
      have opened := opening_passed vf objtype
        (getByte_advances order code).order
      rw [begins] at opened
      have passed := passed_array opened.1 opened.2 (ih opened.1.order).1
      exact ⟨(passed.coded order code).1, fun _ _ _ _ =>
        (passed.coded order code).2⟩
  | last _ _ ih => exact ⟨(ih order).1, nofun⟩
  | refused _ _ _ _ ih ih' =>
      have key := (ih order).1
      exact ⟨key.trans (ih' key.advances.order).1, nofun⟩
  | member _ _ _ _ _ ih ih' ih'' =>
      have key := (ih order).1
      have value := (ih' key.advances.order).1
      exact ⟨(key.trans value).trans (ih'' value.advances.order).1, nofun⟩
  | unread _ ih => exact ⟨(ih order).1, nofun⟩
  | all _ _ ih => exact ⟨(ih order).1, nofun⟩
  | element _ _ _ ih ih' =>
      have element := (ih order).1
      exact ⟨element.trans (ih' element.advances.order).1, nofun⟩

/-- The calls that are enough for so many bytes. -/
def need : Task T F V O → Nat → Nat
  | .valuex _ _, left => 2 * left + 1
  | .keysValues _ _, left => 2 * left + 2
  | .values _ _ _, left => 2 * left + 2

/-- The bytes behind the index. -/
def left (fbuf : EtchFlexbuffer) : Nat :=
  fbuf.datalen - fbuf.index

theorem left_lt {fbuf later : EtchFlexbuffer} {accepted : List Accepted}
    (passed : Passed fbuf accepted later)
    (further : fbuf.index < later.index) : left later < left fbuf := by
  have same := passed.advances.datalen
  have order := passed.advances.order
  unfold left
  omega

theorem left_le {fbuf later : EtchFlexbuffer} {accepted : List Accepted}
    (passed : Passed fbuf accepted later) : left later ≤ left fbuf := by
  have same := passed.advances.datalen
  have reached := passed.advances.reached
  unfold left
  omega

/-- The input comes to an end. -/
theorem exists_read {fuel : Nat} (task : Task T F V O)
    {fbuf : EtchFlexbuffer} (order : fbuf.index ≤ fbuf.datalen)
    (enough : need task (left fbuf) ≤ fuel) :
    ∃ outcome, (calls vf fuel).read task fbuf = some outcome := by
  induction fuel generalizing task fbuf with
  | zero => cases task <;> exact absurd enough (Nat.not_succ_le_zero _)
  | succ fuel ih =>
      cases task with
      | valuex vtor isNoneOk =>
          change ∃ outcome,
            readValuex vf (calls vf fuel) vtor isNoneOk fbuf = _
          change 2 * left fbuf + 1 ≤ fuel + 1 at enough
          match code : getByte fbuf with
          | (none, fbuf') => exact ⟨_, readValuex_short vf _ _ _ code⟩
          | (some objtype, fbuf') =>
              have byte := getByte_advances order code
              have opened := opening_passed vf objtype byte.order
              have closer {inside : EtchFlexbuffer}
                  (advances : Advances fbuf' inside 0) :
                  left inside < left fbuf :=
                left_lt ((Passed.of_advances advances).coded order code).1
                  ((Passed.of_advances advances).coded order code).2
              rw [readValuex_coded vf _ _ _ code, readObject_eq]
              match begins : opening vf objtype fbuf' with
              | .whole object => exact ⟨_, rfl⟩
              | .struct thistype itemcount inside =>
                  rw [begins] at opened
                  have less := closer opened
                  obtain ⟨body, run⟩ :=
                    ih (.keysValues thistype []) opened.order
                      (show 2 * left inside + 2 ≤ fuel by omega)
                  change (calls vf fuel).readKeysValues thistype [] inside =
                    some body at run
                  dsimp only
                  rw [run]
                  exact ⟨_, rfl⟩
              | .array header inside =>
                  rw [begins] at opened
                  have less := closer opened.1
                  cases vtor with
                  | none => exact ⟨_, rfl⟩
                  | some vtor =>
                      obtain ⟨body, run⟩ :=
                        ih (.values header
                          (vtor.elementValidator vf) []) opened.1.order
                          (show 2 * left inside + 2 ≤ fuel by omega)
                      change (calls vf fuel).readValues header _ [] inside =
                        some body at run
                      dsimp only
                      rw [run]
                      exact ⟨_, rfl⟩
      | keysValues svtype items =>
          change ∃ outcome,
            readKeysValues vf (calls vf fuel) svtype items fbuf = _
          change 2 * left fbuf + 2 ≤ fuel + 1 at enough
          obtain ⟨⟨thisobj, accepted, inside⟩, key⟩ :=
            ih (.valuex (some .int32) true) order
              (show 2 * left fbuf + 1 ≤ fuel by omega)
          have passed := passed_of_announces vf
            (announces_of_read vf key) order
          change (calls vf fuel).readValuex _ _ _ = _ at key
          rw [readKeysValues, key]
          dsimp only [Option.bind_eq_bind, Option.bind_some]
          cases thisobj with
          | none => exact ⟨_, rfl⟩
          | some object =>
              dsimp only
              split_ifs with ends
              · exact ⟨_, rfl⟩
              · have less : left inside < left fbuf :=
                  left_lt passed.1 (passed.2 _ _ rfl rfl)
                obtain ⟨⟨value, accepted', fbuf'⟩, member⟩ :=
                  ih (.valuex (memberVtor vf svtype object.idOf)
                    false) passed.1.advances.order
                    (show 2 * left inside + 1 ≤ fuel by omega)
                have passed' := passed_of_announces vf
                  (announces_of_read vf member) passed.1.advances.order
                change (calls vf fuel).readValuex _ _ _ = _ at member
                rw [member]
                dsimp only [Option.bind_some]
                cases memberStored vf svtype items object.idOf value with
                | none => exact ⟨_, rfl⟩
                | some items' =>
                    have less' : left fbuf' ≤ left inside :=
                      left_le passed'.1
                    obtain ⟨others, run⟩ :=
                      ih (.keysValues svtype items')
                        passed'.1.advances.order
                        (show 2 * left fbuf' + 2 ≤ fuel by omega)
                    change (calls vf fuel).readKeysValues _ _ _ = _ at run
                    dsimp only
                    rw [run]
                    exact ⟨_, rfl⟩
      | values header ev list =>
          change ∃ outcome,
            readValues (calls vf fuel) header ev list fbuf = _
          change 2 * left fbuf + 2 ≤ fuel + 1 at enough
          obtain ⟨⟨thisobj, accepted, inside⟩, element⟩ :=
            ih (.valuex ev true) order
              (show 2 * left fbuf + 1 ≤ fuel by omega)
          have passed := passed_of_announces vf
            (announces_of_read vf element) order
          change (calls vf fuel).readValuex _ _ _ = _ at element
          rw [readValues, element]
          dsimp only [Option.bind_eq_bind, Option.bind_some]
          cases thisobj with
          | none => exact ⟨_, rfl⟩
          | some object =>
              dsimp only
              split_ifs with ends
              · exact ⟨_, rfl⟩
              · have less : left inside < left fbuf :=
                  left_lt passed.1 (passed.2 _ _ rfl rfl)
                obtain ⟨others, run⟩ :=
                  ih (.values header ev (list ++ [object]))
                    passed.1.advances.order
                    (show 2 * left inside + 2 ≤ fuel by omega)
                change (calls vf fuel).readValues _ _ _ _ = _ at run
                rw [run]
                exact ⟨_, rfl⟩

/-! ## Messages -/

/-- A message is read, and the counts that it announces are accepted. -/
theorem exists_readMessageFrom (buf : List UInt8) :
    ∃ outcome, readMessageFrom vf buf = some outcome ∧
      AnnouncesMessage vf buf outcome.accepted ∧
      ∀ one ∈ outcome.accepted, one.Lawful := by
  have order : (newFlexbufferFrom buf).index ≤
      (newFlexbufferFrom buf).datalen := Nat.zero_le _
  have advances := onward_startMessage vf _ order
  unfold readMessageFrom readMessageWithin
  match start : startMessage vf (newFlexbufferFrom buf) with
  | (none, fbuf) => exact ⟨_, rfl, .refused start, nofun⟩
  | (some (typeobj, itemcount), fbuf) =>
      rw [start] at advances
      have less : left fbuf ≤ buf.length :=
        left_le (Passed.of_advances advances)
      obtain ⟨outcome, run⟩ := exists_read vf
        (.keysValues typeobj []) advances.order
        (show 2 * left fbuf + 2 ≤ 2 * buf.length + 2 by omega)
      have body := announces_of_read vf run
      have passed := @passed_struct _ _ _ _ itemcount.toInt advances
        (passed_of_announces vf body advances.order).1
      change (calls vf _).readKeysValues typeobj [] fbuf = _ at run
      dsimp only
      rw [run]
      exact ⟨_, rfl, .message start body, passed.lawful⟩

theorem AnnouncesMessage.unique {buf : List UInt8}
    {counts counts' : List Accepted}
    (announces : AnnouncesMessage vf buf counts)
    (announces' : AnnouncesMessage vf buf counts') : counts = counts' := by
  cases announces with
  | refused start =>
      cases announces' with
      | refused _ => rfl
      | message start' _ => cases start.symm.trans start'
  | message start body =>
      cases announces' with
      | refused start' => cases start.symm.trans start'
      | message start' body' =>
          cases start.symm.trans start'
          rw [Announces.unique vf body body']

omit [DecidableEq F] in
theorem count_eq (one : Accepted) (lawful : one.Lawful) :
    one.count = one.announced + one.copied := by
  cases one with
  | items itemcount => exact (Int.add_zero _).symm
  | elements numdimensions numelements => exact (Int.add_zero _).symm
  | bytes bytecount =>
      exact (Int.toNat_of_nonneg lawful).symm.trans (Int.zero_add _).symm

/-! ## Bounds -/

/-- Sizes that are together no more than so many bytes, and numbers of
dimensions that are supported. -/
structure Bounded (size : Nat) (accepted : List Accepted) : Prop where
  nonneg : ∀ one ∈ accepted, 0 ≤ one.count
  total : (accepted.map Accepted.count).sum ≤ size
  dimensions : ∀ numdimensions numelements,
    .elements numdimensions numelements ∈ accepted →
      1 ≤ numdimensions ∧ numdimensions ≤ MAX_NDIMS

/-- Announced sizes that a reader need not refuse: those of messages and
structs are not negative, the arrays are of no more than the supported
dimensions, and the bytes that no string takes are enough for all items. -/
structure Modest (size : Nat) (counts : List Accepted) : Prop where
  nonneg : ∀ itemcount, .items itemcount ∈ counts → 0 ≤ itemcount
  dimensions : ∀ numdimensions numelements,
    .elements numdimensions numelements ∈ counts →
      numdimensions ≤ MAX_NDIMS
  total : (counts.map Accepted.announced).sum ≤ size - copied counts

omit [DecidableEq F] in
theorem sum_count (accepted : List Accepted)
    (lawful : ∀ one ∈ accepted, one.Lawful) :
    (accepted.map Accepted.count).sum =
      (accepted.map Accepted.announced).sum + copied accepted := by
  induction accepted with
  | nil => rfl
  | cons one rest ih =>
      have first := count_eq one (lawful one List.mem_cons_self)
      have others := ih fun one mem =>
        lawful one (List.mem_cons_of_mem _ mem)
      simp only [copied, List.map_cons, List.sum_cons] at others ⊢
      omega

omit [DecidableEq F] in
theorem bounded_iff_modest {size : Nat} {accepted : List Accepted}
    (lawful : ∀ one ∈ accepted, one.Lawful) :
    Bounded size accepted ↔ Modest size accepted := by
  have sum := sum_count accepted lawful
  constructor
  · intro bounded
    refine ⟨fun itemcount mem => bounded.nonneg _ mem,
      fun numdimensions numelements mem =>
        (bounded.dimensions _ _ mem).2, ?_⟩
    have total := bounded.total
    omega
  · intro modest
    refine ⟨fun one mem => ?_, ?_, fun numdimensions numelements mem =>
      ⟨(lawful _ mem).1, modest.dimensions _ _ mem⟩⟩
    · cases one with
      | items itemcount => exact modest.nonneg _ mem
      | elements numdimensions numelements => exact (lawful _ mem).2
      | bytes bytecount => exact lawful _ mem
    · have total := modest.total
      omega

end Following

/-! ## An item count without a check -/

/-- A factory with one type that has no fields. -/
def bareFactory : ValueFactory Unit Unit Unit Unit where
  getTypeById := fun _ => some ()
  getFieldById := fun _ _ => none
  getValidatorByName := fun _ _ => none
  validate := fun _ _ => true
  validateValue := fun _ => some
  elementValidator := fun _ => none
  importCustomValue := fun _ _ => none
  validateWrite := false

/-- A message of eight bytes that has room for a thousand million items. -/
def hugeMessage : List UInt8 :=
  [0x03, 0x01, 0x86, 0x3b, 0x9a, 0xca, 0x00, 0x81]

end BinaryTdi

end Etch.C
