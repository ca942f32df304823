import Etch.Cpp.UrlPorts

/-!
# The parts of a text

The parts of a text are the same in each way to write it, as long as an ASCII
character is written as a unit of its own.
-/

namespace Etch.Cpp

open Etch.Library.Splitting

/-! ## Ways to write a text -/

/-- ASCII characters are written as one unit, which is that of no other
character. -/
structure Encodes {Code : Type} (δ : Char → Code)
    (code : Char → List Code) : Prop where
  own : ∀ d : Char, d.toNat < 128 → code d = [δ d]
  only : ∀ d c : Char, d.toNat < 128 → δ d ∈ code c → c = d
  ne_nil : ∀ c, code c ≠ []

theorem encodes_utf16 : Encodes Java.char Java.Utf8.ofChar where
  own _ ascii := ofChar_ascii ascii
  only _ _ ascii mem := mem_ofChar ascii mem
  ne_nil c := by
    unfold Java.Utf8.ofChar
    split_ifs
    · exact List.cons_ne_nil _ _
    · exact List.cons_ne_nil _ _

theorem encodes_utf8 : Encodes byte String.utf8EncodeChar where
  own _ ascii := utf8_ascii ascii
  only _ _ ascii mem := mem_utf8EncodeChar ascii mem
  ne_nil _ := String.utf8EncodeChar_ne_nil

namespace Encodes

variable {Code : Type} [DecidableEq Code] {δ : Char → Code}
  {code : Char → List Code} {d : Char} {s : List Char}

theorem cut_eq (encodes : Encodes δ code) (ascii : d.toNat < 128)
    (s : List Char) :
    cut (δ d) (s.flatMap code) =
      ((cut d s).1.flatMap code, (cut d s).2.map (·.flatMap code)) :=
  cut_flatMap (encodes.own d ascii) (fun c => encodes.only d c ascii) s

theorem splitOn_eq (encodes : Encodes δ code) (ascii : d.toNat < 128)
    (s : List Char) :
    (s.flatMap code).splitOn (δ d) =
      (s.splitOn d).map (·.flatMap code) := by
  induction size : s.length using Nat.strong_induction_on
    generalizing s with
  | _ n ih =>
      rw [splitOn_eq_cut, splitOn_eq_cut, encodes.cut_eq ascii]
      cases parts : cut d s with
      | mk front back =>
          cases back with
          | none => rfl
          | some back =>
              have shorter := length_lt_of_cut parts
              dsimp only [Option.map_some]
              rw [ih back.length (by omega) back rfl, List.map_cons]

omit [DecidableEq Code] in
theorem eq_nil_iff (encodes : Encodes δ code) :
    s.flatMap code = [] ↔ s = [] := by
  cases s with
  | nil => exact iff_of_true rfl rfl
  | cons c s => simp [encodes.ne_nil c]

omit [DecidableEq Code] in
/-- What is written begins with a delimiter if the text does. -/
theorem eq_cons_iff (encodes : Encodes δ code) (ascii : d.toNat < 128)
    {rest : List Code} :
    s.flatMap code = δ d :: rest ↔
      ∃ t, s = d :: t ∧ rest = t.flatMap code := by
  constructor
  · intro written
    cases s with
    | nil => cases written
    | cons c s =>
        rw [List.flatMap_cons] at written
        obtain ⟨unit, units, coded⟩ :=
          List.exists_cons_of_ne_nil (encodes.ne_nil c)
        have first : unit = δ d := by
          rw [coded, List.cons_append] at written
          exact (List.cons.inj written).1
        have same : c = d := by
          refine encodes.only d c ascii ?_
          rw [coded, first]
          exact List.mem_cons_self
        rw [same, encodes.own d ascii] at written
        exact ⟨s, by rw [same], (List.cons.inj written).2.symm⟩
  · rintro ⟨t, rfl, rfl⟩
    rw [List.flatMap_cons, encodes.own d ascii]
    rfl

theorem isPrefixOf_pair {Unit : Type} [DecidableEq Unit] {unit : Unit}
    {units : List Unit} : [unit, unit].isPrefixOf units = true ↔
      ∃ rest, units = unit :: unit :: rest := by
  rw [List.isPrefixOf_iff_prefix]
  constructor
  · rintro ⟨rest, rfl⟩
    exact ⟨rest, rfl⟩
  · rintro ⟨rest, rfl⟩
    exact ⟨rest, rfl⟩

theorem begins_iff (encodes : Encodes δ code) (ascii : d.toNat < 128) :
    [δ d, δ d].isPrefixOf (s.flatMap code) = true ↔
      [d, d].isPrefixOf s = true := by
  rw [isPrefixOf_pair, isPrefixOf_pair]
  constructor
  · rintro ⟨rest, written⟩
    obtain ⟨t, rfl, rest'⟩ := (encodes.eq_cons_iff ascii).mp written
    obtain ⟨u, rfl, -⟩ := (encodes.eq_cons_iff ascii).mp rest'.symm
    exact ⟨u, rfl⟩
  · rintro ⟨u, rfl⟩
    refine ⟨u.flatMap code, ?_⟩
    rw [List.flatMap_cons, List.flatMap_cons, encodes.own d ascii]
    rfl

omit [DecidableEq Code] in
theorem drop_two (encodes : Encodes δ code) (ascii : d.toNat < 128)
    (begins : [d, d].isPrefixOf s = true) :
    (s.flatMap code).drop 2 = (s.drop 2).flatMap code := by
  obtain ⟨u, rfl⟩ := isPrefixOf_pair.mp begins
  rw [List.flatMap_cons, List.flatMap_cons, encodes.own d ascii]
  rfl

end Encodes

namespace Parts

variable {Code Code' : Type}

/-- The parts written in another way. -/
def map (write : List Code → List Code') (parts : Parts Code) :
    Parts Code' where
  scheme := write parts.scheme
  rest := write parts.rest
  fragment := parts.fragment.map write
  terms := parts.terms.map write
  params := parts.params.map write
  body := write parts.body
  authority := parts.authority.map write
  slash := parts.slash.map write

variable [DecidableEq Code] {δ : Char → Code} {code : Char → List Code}

theorem ofRest_flatMap (encodes : Encodes δ code) (scheme rest : List Char) :
    ofRest δ (scheme.flatMap code) (rest.flatMap code) =
      (ofRest id scheme rest).map (·.flatMap code) := by
  have slash : '/'.toNat < 128 := by decide
  unfold ofRest map
  simp only [encodes.cut_eq (d := '#') (by decide),
    encodes.cut_eq (d := '?') (by decide),
    encodes.cut_eq (d := ';') (by decide), encodes.begins_iff slash, id_eq]
  by_cases begins : ['/', '/'].isPrefixOf
      (cut ';' (cut '?' (cut '#' rest).1).1).1 = true
  · simp only [begins, if_true, encodes.drop_two slash begins,
      encodes.cut_eq slash, Option.map_some]
  · simp only [begins, Bool.false_eq_true, if_false, Option.map_none]

theorem of_flatMap (encodes : Encodes δ code) (text : List Char) :
    Parts.of δ (text.flatMap code) =
      (Parts.of id text).map (map (·.flatMap code)) := by
  unfold Parts.of
  rw [encodes.cut_eq (by decide), id_eq]
  cases cut ':' text with
  | mk scheme rest =>
      cases rest with
      | none => rfl
      | some rest =>
          exact congrArg some (ofRest_flatMap encodes scheme rest)

variable (parts : Parts Char)

omit [DecidableEq Code] in
theorem uri_map :
    (parts.map (·.flatMap code)).uri = parts.uri.flatMap code := by
  unfold uri map
  cases parts.authority with
  | none => rfl
  | some authority =>
      cases parts.slash with
      | none => rfl
      | some slash => rfl

/-- The two parts around a colon, written in another way. -/
def mapPair (write : List Char → List Code)
    (pair : List Char × Option (List Char)) :
    List Code × Option (List Code) :=
  (write pair.1, pair.2.map write)

theorem userPassword_map (encodes : Encodes δ code) :
    (parts.map (·.flatMap code)).userPassword δ =
      (parts.userPassword id).map (mapPair (·.flatMap code)) := by
  unfold userPassword map
  cases parts.authority with
  | none => rfl
  | some authority =>
      dsimp only [Option.map_some, Option.bind_some]
      rw [encodes.cut_eq (by decide), id_eq]
      cases cut '@' authority with
      | mk user host =>
          cases host with
          | none => rfl
          | some host =>
              exact congrArg some (encodes.cut_eq (by decide) user)

theorem hostPort_map (encodes : Encodes δ code) :
    (parts.map (·.flatMap code)).hostPort δ =
      (parts.hostPort id).map (mapPair (·.flatMap code)) := by
  unfold hostPort map
  cases parts.authority with
  | none => rfl
  | some authority =>
      dsimp only [Option.map_some]
      rw [encodes.cut_eq (by decide), id_eq]
      cases cut '@' authority with
      | mk user host =>
          cases host with
          | none => exact congrArg some (encodes.cut_eq (by decide) user)
          | some host => exact congrArg some (encodes.cut_eq (by decide) host)

theorem termPieces_map (encodes : Encodes δ code) :
    (parts.map (·.flatMap code)).termPieces δ =
      (parts.termPieces id).map (mapPair (·.flatMap code)) := by
  unfold termPieces map
  cases parts.terms with
  | none => rfl
  | some terms =>
      dsimp only [Option.map_some]
      rw [encodes.splitOn_eq (by decide), List.filter_map, List.map_map,
        List.map_map]
      have kept : ((fun s : List Code => decide (s ≠ [])) ∘
          fun s : List Char => s.flatMap code) =
            fun s : List Char => decide (s ≠ []) := by
        funext s
        simp only [Function.comp_apply, ne_eq, encodes.eq_nil_iff]
      rw [kept]
      exact List.map_congr_left fun s _ => encodes.cut_eq (by decide) s

theorem hasValue_flatMap (encodes : Encodes δ code) (s : List Char) :
    hasValue δ (s.flatMap code) ↔ hasValue id s := by
  unfold hasValue
  rw [encodes.cut_eq (by decide), id_eq]
  cases (cut '=' s).2 with
  | none => simp
  | some value => simp [encodes.eq_nil_iff]

/-- Whether the parts are taken does not depend on how they are written. -/
theorem taken_map (encodes : Encodes δ code) :
    Taken δ (parts.map (·.flatMap code)) ↔ Taken id parts := by
  have isSome (part : Option (List Char)) :
      part.map (·.flatMap code) ≠ some [] ↔ part ≠ some [] := by
    cases part with
    | none => simp
    | some part => simp [encodes.eq_nil_iff]
  have last (d : Char) (ascii : d.toNat < 128) (s : List Char)
      (good : List Code → Prop) :
      (∃ last ∈ ((s.flatMap code).splitOn (δ d)).getLast?, good last) ↔
        ∃ last ∈ (s.splitOn d).getLast?, good (last.flatMap code) := by
    rw [encodes.splitOn_eq ascii, List.getLast?_map]
    simp
  have rest : parts.rest.flatMap code ≠ [] ↔ parts.rest ≠ [] :=
    not_congr encodes.eq_nil_iff
  have terms : (∀ terms ∈ parts.terms.map (·.flatMap code),
      ∃ last ∈ (terms.splitOn (δ '&')).getLast?, hasValue δ last) ↔
        ∀ terms ∈ parts.terms,
          ∃ last ∈ (terms.splitOn '&').getLast?, hasValue id last := by
    simp only [Option.mem_map, forall_exists_index, and_imp,
      forall_apply_eq_imp_iff₂, last '&' (by decide),
      hasValue_flatMap encodes]
  have params : (∀ params ∈ parts.params.map (·.flatMap code),
      ∃ last ∈ (params.splitOn (δ ';')).getLast?, last ≠ []) ↔
        ∀ params ∈ parts.params,
          ∃ last ∈ (params.splitOn ';').getLast?, last ≠ [] := by
    simp only [Option.mem_map, forall_exists_index, and_imp,
      forall_apply_eq_imp_iff₂, last ';' (by decide), ne_eq,
      encodes.eq_nil_iff]
  have host : (∀ authority ∈ parts.authority.map (·.flatMap code),
      (cut (δ '@') authority).2 ≠ some []) ↔
        ∀ authority ∈ parts.authority, (cut '@' authority).2 ≠ some [] := by
    simp only [Option.mem_map, forall_exists_index, and_imp,
      forall_apply_eq_imp_iff₂, encodes.cut_eq (d := '@') (by decide), isSome]
  constructor
  · intro taken
    exact ⟨rest.mp taken.rest, (isSome _).mp taken.fragment,
      terms.mp taken.terms, params.mp taken.params,
      (isSome _).mp taken.slash, host.mp taken.host⟩
  · intro taken
    exact ⟨rest.mpr taken.rest, (isSome _).mpr taken.fragment,
      terms.mpr taken.terms, params.mpr taken.params,
      (isSome _).mpr taken.slash, host.mpr taken.host⟩

end Parts

end Etch.Cpp
