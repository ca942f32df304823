import Etch.C.EtchType

/-!
# What the tables of a C `etch_type` are asked for

A run of calls, and what is right of each answer: a field has the name that it
was asked for by and is the one that was given before, a field that is asked
for by an id has it, and a validator is made of those that were put under its
name.  A run is right exactly when each name has a hash key and, where the
table is asked, no other name took the hash key first.
-/

namespace Etch.C

open Etch.Library.Fueled

variable {W : Type} (platform : Platform)

/-! ## Runs -/

/-- The calls before, with what they gave back. -/
abbrev TypeHistory (W : Type) := List (TypeCall W × TypeAnswer W)

namespace TypeCall

/-- The name of a field that is in the table after the call. -/
def entered? : TypeCall W → Option WideName
  | .addField name | .getFieldByName name | .putValidator name _ => some name
  | .getFieldById _ | .getValidatorByName _ => none

/-- A validator with the name that it is put under. -/
def put? : TypeCall W → Option (WideName × W)
  | .putValidator name vtor => some (name, vtor)
  | _ => none

end TypeCall

namespace Validator

/-- The validators one after another, each combined with those before it. -/
def combination (vtors : List W) : Option (Validator W) :=
  vtors.foldl (fun combined vtor => some (match combined with
    | none => .single vtor
    | some combined => .combo combined (.single vtor))) none

/-- What a validator is made of. -/
def parts : Validator W → List W
  | .single vtor => [vtor]
  | .combo vtor_a vtor_b => vtor_a.parts ++ vtor_b.parts

theorem combination_append (vtors : List W) (vtor : W) :
    combination (vtors ++ [vtor]) = some (match combination vtors with
      | none => .single vtor
      | some combined => .combo combined (.single vtor)) := by
  unfold combination
  rw [List.foldl_append]
  rfl

theorem parts_combination (vtors : List W) :
    (combination vtors).elim [] parts = vtors := by
  induction vtors using List.reverseRecOn with
  | nil => rfl
  | append_singleton vtors vtor ih =>
      rw [combination_append]
      cases earlier : combination vtors with
      | none =>
          rw [earlier] at ih
          rw [← ih]
          rfl
      | some combined =>
          rw [earlier] at ih
          exact congrArg (· ++ [vtor]) ih

theorem combination_injective {left right : List W}
    (same : combination left = combination right) : left = right := by
  rw [← parts_combination left, same, parts_combination]

end Validator

/-- The validators that were put under a name. -/
def TypeCall.putUnder (calls : List (TypeCall W)) (name : WideName) : List W :=
  ((calls.filterMap put?).filter (·.1 = name)).map Prod.snd

namespace TypeHistory

abbrev calls (earlier : TypeHistory W) : List (TypeCall W) :=
  earlier.map Prod.fst

/-- Whether an answer is the right one. -/
def Right (earlier : TypeHistory W) : TypeCall W → TypeAnswer W → Prop
  | .addField _, .field _ => True
  | .getFieldByName name, .field field => field.name = name ∧
      ∀ before, (.getFieldByName name, .field before) ∈ earlier →
        field = before
  | .getFieldById id, .found none =>
      ∀ name before, (.getFieldByName name, .field before) ∈ earlier →
        before.id ≠ id
  | .getFieldById id, .found (some field) => field.id = id
  | .putValidator _ _, .result result => result = 0
  | .getValidatorByName name, .validator vtor =>
      vtor = Validator.combination (TypeCall.putUnder earlier.calls name)
  | _, _ => False

end TypeHistory

/-- Each call comes back, with an answer that is right. -/
def EtchType.Follows :
    EtchType W → TypeHistory W → List (TypeCall W) → Prop
  | _, _, [] => True
  | type, earlier, call :: calls => ∃ fuel answer type',
      type.perform platform fuel call = some (answer, type') ∧
        earlier.Right call answer ∧
          type'.Follows (earlier ++ [(call, answer)]) calls

/-! ## The condition -/

/-- A field of this name can be made, and it has a hash key. -/
def Platform.Named (name : WideName) : Prop :=
  platform.Converts name ∧ platform.hash name ≠ 0

/-- Whether a call can be answered rightly behind these. -/
def TypeCall.Clear (earlier : List (TypeCall W)) : TypeCall W → Prop
  | .addField name | .putValidator name _ => platform.Named name
  | .getFieldByName name => platform.Named name ∧
      -- the first of its hash key, if one is there, has its name
      ∀ other, (earlier.filterMap entered?).find? (fun other =>
        platform.hash other = platform.hash name) = some other → other = name
  | .getFieldById _ => True
  | .getValidatorByName name => ∀ put ∈ earlier.filterMap put?,
      platform.hash put.1 = platform.hash name → put.1 = name

/-- Whether each call can be answered rightly. -/
def TypeCall.ClearRun : List (TypeCall W) → List (TypeCall W) → Prop
  | _, [] => True
  | earlier, call :: calls => call.Clear platform earlier ∧
      ClearRun (earlier ++ [call]) calls

/-! ## What the tables keep -/

variable {platform} {type type' : EtchType W} {earlier : TypeHistory W}
  {call : TypeCall W} {answer : TypeAnswer W}

/-- The validators that were put under names of a hash key. -/
def TypeCall.putAt (platform : Platform) (calls : List (TypeCall W))
    (hashval : UInt32) : List W :=
  ((calls.filterMap put?).filter (platform.hash ·.1 = hashval)).map Prod.snd

/-- When the validators of a hash key are those of a name, it is the only name
that they were put under. -/
theorem TypeCall.name_of_putAt {calls : List (TypeCall W)} {name : WideName}
    (same : putAt platform calls (platform.hash name) = putUnder calls name)
    {put : WideName × W} (mem : put ∈ calls.filterMap put?)
    (hashed : platform.hash put.1 = platform.hash name) : put.1 = name := by
  unfold putAt putUnder at same
  have lengths := congrArg List.length same
  rw [List.length_map, List.length_map] at lengths
  -- what was put under the name was put under its hash key
  have sublist : ((calls.filterMap put?).filter (·.1 = name)).Sublist
      ((calls.filterMap put?).filter
        (platform.hash ·.1 = platform.hash name)) := by
    refine List.monotone_filter_right _ fun put is => ?_
    exact decide_eq_true (congrArg platform.hash (of_decide_eq_true is))
  have mem' : put ∈ (calls.filterMap put?).filter (·.1 = name) := by
    rw [sublist.eq_of_length lengths.symm]
    exact List.mem_filter.mpr ⟨mem, decide_eq_true hashed⟩
  exact of_decide_eq_true (List.mem_filter.mp mem').2

/-- A name that is the only one of its hash key. -/
theorem TypeCall.putAt_eq {calls : List (TypeCall W)} {name : WideName}
    (only : ∀ put ∈ calls.filterMap put?,
      platform.hash put.1 = platform.hash name → put.1 = name) :
    putAt platform calls (platform.hash name) = putUnder calls name := by
  unfold putAt putUnder
  congr 1
  refine List.filter_congr fun put mem => decide_eq_decide.mpr ?_
  exact ⟨only put mem, congrArg platform.hash⟩

/-- A hash key has the field of the first name that was entered with it, and
the fields that were given are in the table. -/
structure EtchType.KeepsFields (platform : Platform) (type : EtchType W)
    (earlier : TypeHistory W) : Prop where
  named : ∀ name ∈ earlier.calls.filterMap TypeCall.entered?,
    platform.Named name
  first : ∀ hashval, hashval ≠ 0 →
    (type.fieldAt hashval).map EtchField.name =
      (earlier.calls.filterMap TypeCall.entered?).find?
        (platform.hash · = hashval)
  given : ∀ name field, (.getFieldByName name, .field field) ∈ earlier →
    type.fieldAt (platform.hash name) = some field

/-- A hash key has the validators that were put under names of it. -/
def EtchType.KeepsVtors (platform : Platform) (type : EtchType W)
    (calls : List (TypeCall W)) : Prop :=
  ∀ hashval, hashval ≠ 0 → type.vtorAt hashval =
    Validator.combination (TypeCall.putAt platform calls hashval)

namespace EtchType

theorem filterMap_calls {β : Type} (part : TypeCall W → Option β) :
    (TypeHistory.calls (earlier ++ [(call, answer)])).filterMap part =
      earlier.calls.filterMap part ++ (part call).toList := by
  rw [TypeHistory.calls, List.map_append, List.filterMap_append]
  rfl

/-- A call that enters no field. -/
theorem KeepsFields.unchanged (keeps : type.KeepsFields platform earlier)
    (none : call.entered? = none)
    (same : ∀ hashval, type'.fieldAt hashval = type.fieldAt hashval) :
    type'.KeepsFields platform (earlier ++ [(call, answer)]) where
  named := by
    rw [filterMap_calls, none]
    simpa using keeps.named
  first := by
    intro hashval nonzero
    rw [filterMap_calls, none, same, keeps.first hashval nonzero]
    simp
  given := by
    intro name field mem
    rw [same]
    rcases List.mem_append.mp mem with mem | mem
    · exact keeps.given name field mem
    · cases List.mem_singleton.mp mem
      exact nomatch none

/-- A call that enters a field. -/
theorem KeepsFields.entered (keeps : type.KeepsFields platform earlier)
    {field found : EtchField} (entered : type.Entered field found type')
    (made : platform.Made field) (nonzero : field.hashkey ≠ 0)
    (enters : call.entered? = some field.name)
    (gives : ∀ name given, (call, answer) =
      (.getFieldByName name, .field given) → given = found) :
    type'.KeepsFields platform (earlier ++ [(call, answer)]) where
  named := by
    rw [filterMap_calls, enters]
    intro name mem
    rcases List.mem_append.mp mem with mem | mem
    · exact keeps.named name mem
    · cases List.mem_singleton.mp mem
      exact ⟨made.converts, made.hashed ▸ nonzero⟩
  first := by
    intro hashval other
    rw [filterMap_calls, enters, List.find?_append, ← keeps.first hashval other,
      entered.fieldAt]
    split_ifs with here
    · subst here
      rw [entered.taken]
      cases type.fieldAt field.hashkey with
      | none => simp [made.hashed]
      | some before => rfl
    · have differs : ¬ platform.hash field.name = hashval :=
        made.hashed ▸ here
      simp [differs]
  given := by
    intro name given mem
    rw [entered.fieldAt]
    rcases List.mem_append.mp mem with mem | mem
    · have before := keeps.given name given mem
      split_ifs with here
      · rw [entered.taken, here, before]
        rfl
      · exact before
    · have same := List.mem_singleton.mp mem
      cases same
      cases Option.some.inj enters
      rw [if_pos made.hashed, gives _ _ rfl]

/-- A call that puts no validator. -/
theorem KeepsVtors.unchanged (keeps : type.KeepsVtors platform earlier.calls)
    (none : call.put? = none) (same : type'.vtormap = type.vtormap) :
    type'.KeepsVtors platform
      (TypeHistory.calls (earlier ++ [(call, answer)])) := by
  intro hashval nonzero
  have before := keeps hashval nonzero
  unfold TypeCall.putAt at before ⊢
  rw [filterMap_calls, none]
  unfold vtorAt at before ⊢
  rw [same, before]
  simp

/-- A call that puts a validator. -/
theorem KeepsVtors.put (keeps : type.KeepsVtors platform earlier.calls)
    {name : WideName} {vtor : W} (puts : call.put? = some (name, vtor))
    (chains : ∀ hashval, type'.vtorAt hashval =
      if platform.hash name = hashval then
        some (chained (type.vtorAt (platform.hash name)) (.single vtor))
      else type.vtorAt hashval) :
    type'.KeepsVtors platform
      (TypeHistory.calls (earlier ++ [(call, answer)])) := by
  intro hashval other
  have before := keeps hashval other
  unfold TypeCall.putAt at before ⊢
  rw [filterMap_calls, puts, chains]
  split_ifs with here
  · subst here
    have last : (Option.some (name, vtor)).toList.filter
        (platform.hash ·.1 = platform.hash name) = [(name, vtor)] := by
      simp
    rw [List.filter_append, last, List.map_append, List.map_singleton,
      Validator.combination_append, before]
    rfl
  · have last : (Option.some (name, vtor)).toList.filter
        (platform.hash ·.1 = hashval) = [] := by
      simp [here]
    rw [List.filter_append, last, List.append_nil, before]

/-! ## One call -/

/-- What holds between two calls. -/
structure Keeps (platform : Platform) (type : EtchType W)
    (earlier : TypeHistory W) : Prop where
  tidy : type.Tidy platform
  fields : type.KeepsFields platform earlier
  vtors : type.KeepsVtors platform earlier.calls

theorem keeps_newType : (newType : EtchType W).Keeps platform [] where
  tidy := tidy_newType platform
  fields := {
    named := fun _ mem => nomatch mem
    first := fun hashval _ => by
      unfold fieldAt newType
      rw [Htab.hfindx_hcreate]
      rfl
    given := fun _ _ mem => nomatch mem }
  vtors := fun hashval _ => by
    unfold vtorAt newType
    rw [Htab.hfindx_hcreate]
    rfl

/-- A validator is put under a name with a hash key. -/
theorem Keeps.nonzero_of_put (keeps : type.Keeps platform earlier)
    {put : WideName × W}
    (mem : put ∈ earlier.calls.filterMap TypeCall.put?) :
    platform.hash put.1 ≠ 0 := by
  obtain ⟨call, there, is⟩ := List.mem_filterMap.mp mem
  cases call with
  | putValidator name vtor =>
      cases is
      exact (keeps.fields.named _
        (List.mem_filterMap.mpr ⟨_, there, rfl⟩)).2
  | _ => exact nomatch is

theorem Keeps.putAt_zero (keeps : type.Keeps platform earlier) :
    TypeCall.putAt platform earlier.calls 0 = [] := by
  unfold TypeCall.putAt
  rw [List.filter_eq_nil_iff.mpr, List.map_nil]
  exact fun put mem zero =>
    keeps.nonzero_of_put mem (of_decide_eq_true zero)

variable {fuel : Nat}

/-- Of a field that is made for a call and then used. -/
theorem converts_of_made {α : Type} {name : WideName}
    {rest : EtchField × EtchType W → Option α} {result : α}
    (came : type.newField platform name >>= rest = some result) :
    platform.Converts name ∧ rest (platform.field type.objects name,
      { type with objects := type.objects + 1 }) = some result := by
  obtain ⟨pair, made, rest⟩ := Option.bind_eq_some_iff.mp came
  obtain ⟨field, new, rfl⟩ := Option.map_eq_some_iff.mp made
  unfold Platform.newField at new
  split_ifs at new with converts
  cases new
  exact ⟨converts, rest⟩

/-- A field that can be made is. -/
theorem returns_of_made {α : Type} {name : WideName}
    (converts : platform.Converts name)
    {rest : Nat → EtchField × EtchType W → Option α} {result : α}
    (returns : Returns (fun fuel => rest fuel
      (platform.field type.objects name,
        { type with objects := type.objects + 1 })) result) :
    Returns (fun fuel => type.newField platform name >>= rest fuel)
      result := by
  have made : type.newField platform name =
      some (platform.field type.objects name,
        { type with objects := type.objects + 1 }) := by
    rw [EtchType.newField, Platform.newField, if_pos converts]
    rfl
  rw [made]
  exact returns

/-- A field is only added when its name has a hash key. -/
theorem Tidy.named_of_addField (tidy : type.Tidy platform) {name : WideName}
    (converts : platform.Converts name) {object : Nat}
    {result : EtchField × EtchType W} (came : EtchType.addField platform fuel
      type (platform.field object name) = some result) :
    platform.Named name := by
  refine ⟨converts, fun zero => ?_⟩
  rw [(endless fuel zero).1 type _ tidy zero rfl] at came
  exact nomatch came

/-- A call that came back with the right answer could be answered rightly. -/
theorem Keeps.clear_of_right (keeps : type.Keeps platform earlier)
    (came : type.perform platform fuel call = some (answer, type'))
    (right : earlier.Right call answer) :
    call.Clear platform earlier.calls := by
  cases call with
  | addField name =>
      obtain ⟨converts, came⟩ := converts_of_made came
      obtain ⟨_, came, _⟩ := Option.bind_eq_some_iff.mp came
      exact (keeps.tidy.objects _).named_of_addField converts came
  | putValidator name vtor =>
      obtain ⟨converts, came⟩ := converts_of_made came
      obtain ⟨_, came, _⟩ := Option.bind_eq_some_iff.mp came
      obtain ⟨_, came, _⟩ := Option.bind_eq_some_iff.mp came
      exact (keeps.tidy.objects _).named_of_addField converts came
  | getFieldById id => trivial
  | getFieldByName name =>
      obtain ⟨⟨field, between⟩, came, last⟩ :=
        Option.bind_eq_some_iff.mp came
      cases last
      have nonzero : platform.hash name ≠ 0 := fun zero => by
        rw [(endless fuel zero).2 type keeps.tidy] at came
        exact nomatch came
      have first := keeps.fields.first _ nonzero
      cases here : type.fieldAt (platform.hash name) with
      | none =>
          rw [here] at first
          refine ⟨⟨?_, nonzero⟩, fun other found => ?_⟩
          · by_contra refused
            rw [getFieldByName_eq_none refused here] at came
            exact nomatch came
          · exact nomatch first.trans found
      | some found =>
          rw [here] at first
          cases fuel with
          | zero => exact nomatch came
          | succ fuel =>
              rw [getFieldByName_of_some fuel nonzero here] at came
              cases came
              have same : field.name = name := right.1
              have made := (keeps.tidy.made_of_fieldAt here).1
              refine ⟨⟨same ▸ made.converts, nonzero⟩, fun other other_eq => ?_⟩
              exact (Option.some.inj (first.trans other_eq)).symm.trans same
  | getValidatorByName name =>
      cases came
      change type.getValidatorByName platform name = _ at right
      intro put mem hashed
      by_cases zero : platform.hash name = 0
      · exact absurd (hashed.trans zero) (keeps.nonzero_of_put mem)
      rw [getValidatorByName_eq, if_neg zero, keeps.vtors _ zero] at right
      exact TypeCall.name_of_putAt (Validator.combination_injective right)
        mem hashed

/-! ## Runs of calls -/

/-- A call that can be answered rightly is. -/
theorem Keeps.answered (keeps : type.Keeps platform earlier)
    (clear : call.Clear platform earlier.calls) :
    ∃ answer type', Returns (fun fuel => type.perform platform fuel call)
      (answer, type') ∧ earlier.Right call answer ∧
        type'.Keeps platform (earlier ++ [(call, answer)]) := by
  cases call with
  | addField name =>
      obtain ⟨converts, nonzero⟩ := clear
      obtain ⟨found, type', tidy', entered, same, returns⟩ :=
        (keeps.tidy.objects (type.objects + 1)).addField
          (platform.made_field converts type.objects) nonzero
      refine ⟨.field found, type', ?_, trivial, tidy',
        keeps.fields.entered ⟨entered.taken, entered.fieldAt⟩
          (platform.made_field converts type.objects) nonzero rfl
          (fun _ _ same => nomatch same),
        keeps.vtors.unchanged rfl same⟩
      exact returns_of_made converts (returns.bind rfl)
  | putValidator name vtor =>
      obtain ⟨converts, nonzero⟩ := clear
      obtain ⟨found, type', tidy', entered, chains, returns⟩ :=
        (keeps.tidy.objects (type.objects + 1)).putValidator
          (platform.made_field converts type.objects) nonzero (.single vtor)
      refine ⟨.result 0, type', ?_, rfl, tidy',
        keeps.fields.entered ⟨entered.taken, entered.fieldAt⟩
          (platform.made_field converts type.objects) nonzero rfl
          (fun _ _ same => nomatch same),
        keeps.vtors.put rfl chains⟩
      exact returns_of_made converts (returns.bind rfl)
  | getFieldById id =>
      refine ⟨_, type, .const _, ?_, keeps.tidy,
        keeps.fields.unchanged rfl fun _ => rfl, keeps.vtors.unchanged rfl rfl⟩
      cases found : type.getFieldById id with
      | none =>
          exact fun name before mem => keeps.tidy.id_ne_of_getFieldById found
            (keeps.fields.given name before mem)
      | some field => exact getFieldById_eq_some found
  | getFieldByName name =>
      obtain ⟨⟨converts, nonzero⟩, only⟩ := clear
      obtain ⟨found, type', tidy', entered, same, returns⟩ :=
        keeps.tidy.getFieldByName converts nonzero
      refine ⟨.field found, type', returns.bind rfl, ⟨?_, ?_⟩, tidy',
        keeps.fields.entered entered (platform.made_field converts _) nonzero
          rfl ?_, keeps.vtors.unchanged rfl same⟩
      · have first := keeps.fields.first _ nonzero
        rw [entered.taken]
        change ((type.fieldAt (platform.hash name)).getD _).name = name
        cases here : type.fieldAt (platform.hash name) with
        | none => rfl
        | some before =>
            rw [here] at first
            exact only before.name first.symm
      · intro before mem
        have here := keeps.fields.given name before mem
        rw [entered.taken]
        change (type.fieldAt (platform.hash name)).getD _ = before
        rw [here]
        rfl
      · intro _ _ same
        cases same
        rfl
  | getValidatorByName name =>
      refine ⟨_, type, .const _, ?_, keeps.tidy,
        keeps.fields.unchanged rfl fun _ => rfl, keeps.vtors.unchanged rfl rfl⟩
      change type.getValidatorByName platform name = _
      rw [getValidatorByName_eq, ← TypeCall.putAt_eq clear]
      split_ifs with zero
      · rw [zero, keeps.putAt_zero]
        rfl
      · exact keeps.vtors _ zero

/-- A run behind others is right exactly when each of its calls could be
answered rightly. -/
theorem Keeps.follows_iff_clearRun (keeps : type.Keeps platform earlier)
    (calls : List (TypeCall W)) :
    type.Follows platform earlier calls ↔
      TypeCall.ClearRun platform earlier.calls calls := by
  induction calls generalizing type earlier with
  | nil => exact Iff.rfl
  | cons call calls ih =>
      have calls_eq (answer : TypeAnswer W) : TypeHistory.calls
          (earlier ++ [(call, answer)]) = earlier.calls ++ [call] :=
        List.map_append
      constructor
      · rintro ⟨fuel, answer, type', came, right, follows⟩
        have clear := keeps.clear_of_right came right
        obtain ⟨answer', between, returns, _, keeps'⟩ := keeps.answered clear
        cases returns.only fuel _ came
        exact ⟨clear, calls_eq answer ▸ (ih keeps').mp follows⟩
      · rintro ⟨clear, rest⟩
        obtain ⟨answer, type', returns, right, keeps'⟩ := keeps.answered clear
        obtain ⟨fuel, came⟩ := returns.reached
        exact ⟨fuel, answer, type', came, right,
          (ih keeps').mpr ((calls_eq answer).symm ▸ rest)⟩

/-- The tables of a new type resolve names as they should exactly in the runs
where each name that is looked for has a hash key of its own. -/
theorem newType_follows_iff (platform : Platform) (calls : List (TypeCall W)) :
    (newType : EtchType W).Follows platform [] calls ↔
      TypeCall.ClearRun platform [] calls :=
  keeps_newType.follows_iff_clearRun calls

/-- The field of the empty name is asked for without end. -/
theorem empty_name_unanswered :
    ¬ ∀ (platform : Platform) (calls : List (TypeCall Unit)),
      (newType : EtchType Unit).Follows platform [] calls := by
  intro all
  have follows := all ⟨fun _ input => some (input.map UInt32.toUInt8), true,
    .ucs4, .bits64⟩ [.getFieldByName []]
  obtain ⟨fuel, answer, type', came, _⟩ := follows
  obtain ⟨_, came, _⟩ := Option.bind_eq_some_iff.mp came
  rw [(endless fuel rfl).2 _ (tidy_newType _)] at came
  exact nomatch came

end EtchType

end Etch.C
