import Etch.Cpp.UrlFields

/-!
# The two URL parsers

A text without escape sequences is read by the Java parser and by the one of
C++.  Both cut it into the same parts, and each has conditions of its own on
them: what Java wants is `Readable`, what C++ wants is `Parts.Taken`.  The
fields are the same where the parts are `Alike`.
-/

namespace Etch.Cpp

open Etch.Java (JavaString Digits Terms Url char)
open Etch.Java.Url (addPairs lookup_addPairs valuesOf)

variable {digits : Digits} {parts : Parts Char} {url : Url}

/-! ## The same fields -/

/-- A name has in Java the one value that it has in C++, if there is one. -/
def SameTerms (terms : Terms) (table : UrlTable) : Prop :=
  ∀ name name', SameText name name' →
    List.Forall₂ SameText (terms.values name) (table.lookup name').toList

/-- The fields are the same. -/
structure Same (url : Url) (url' : EtchURL) : Prop where
  scheme : Option.Rel SameText url.scheme url'.scheme
  user : Option.Rel SameText url.user url'.user
  password : Option.Rel SameText url.password url'.password
  host : Option.Rel SameText url.host url'.host
  port : url.port.map Fin.val = url'.port.map UInt16.toNat
  uri : Option.Rel SameText url.uri url'.uri
  terms : SameTerms url.terms url'.terms
  fragment : Option.Rel SameText url.fragment url'.fragment

/-- The parts come out the same: no part has a plus sign, the password is not
empty, the host has a port, whose digits are ASCII or which is zero, and every
term has a name of its own and a value. -/
structure Alike (digits : Digits) (parts : Parts Char) : Prop where
  scheme : '+' ∉ parts.scheme
  user : ∀ pair ∈ parts.userPassword id, '+' ∉ pair.1 ∧
    ∀ password ∈ pair.2, password ≠ [] ∧ '+' ∉ password
  host : ∀ pair ∈ parts.hostPort id, '+' ∉ pair.1 ∧
    ∃ port ∈ pair.2, (∀ c ∈ port, c.toNat < 128) ∨
      digits.parseInt (utf16 port) = some 0
  uri : '+' ∉ parts.uri
  names : ((parts.termPieces id).map (·.1)).Nodup
  values : ∀ piece ∈ parts.termPieces id, '+' ∉ piece.1 ∧
    ∃ value ∈ piece.2, value ≠ [] ∧ '+' ∉ value
  fragment : ∀ fragment ∈ parts.fragment, '+' ∉ fragment

theorem sameText_blank {s : List Char} :
    SameText (utf16 (blank s)) (utf8 s) ↔ '+' ∉ s :=
  sameText_iff.trans blank_eq_self

theorem rel_blank (part : Option (List Char)) :
    Option.Rel SameText (part.map (utf16 ∘ blank)) (part.map utf8) ↔
      ∀ s ∈ part, '+' ∉ s := by
  cases part with
  | none => exact iff_of_true .none (by simp)
  | some s =>
      constructor
      · rintro ⟨same⟩ _ ⟨⟩
        exact sameText_blank.mp same
      · intro free
        exact .some (sameText_blank.mpr (free s rfl))

/-- The user and the password come out the same. -/
theorem user_iff (pair : Option (List Char × Option (List Char))) :
    (Option.Rel SameText ((pair.map (·.1)).map (utf16 ∘ blank))
        ((EtchURL.keptUser (pair.map (Parts.mapPair utf8))).map (·.1)) ∧
      Option.Rel SameText ((pair.bind (·.2)).map (utf16 ∘ blank))
        ((EtchURL.keptUser (pair.map (Parts.mapPair utf8))).bind (·.2))) ↔
      ∀ both ∈ pair, '+' ∉ both.1 ∧
        ∀ password ∈ both.2, password ≠ [] ∧ '+' ∉ password := by
  cases pair with
  | none => exact iff_of_true ⟨.none, .none⟩ (by simp)
  | some both =>
      obtain ⟨user, password⟩ := both
      cases password with
      | none =>
          have first := rel_blank (some user)
          constructor
          · rintro ⟨same, -⟩ _ ⟨⟩
            exact ⟨first.mp same user rfl, by simp⟩
          · intro free
            refine ⟨first.mpr ?_, .none⟩
            rintro _ ⟨⟩
            exact (free _ rfl).1
      | some password =>
          by_cases empty : password = []
          · subst empty
            refine iff_of_false ?_ fun free => ((free _ rfl).2 [] rfl).1 rfl
            rintro ⟨⟨⟩, -⟩
          · have kept : EtchURL.keptUser
                ((some (user, some password)).map (Parts.mapPair utf8)) =
                  some (utf8 user, some (utf8 password)) :=
              if_neg fun none => empty (encodes_utf8.eq_nil_iff.mp none)
            have first := rel_blank (some user)
            have second := rel_blank (some password)
            rw [kept]
            constructor
            · rintro ⟨same, same'⟩ _ ⟨⟩
              refine ⟨first.mp same user rfl, ?_⟩
              rintro _ ⟨⟩
              exact ⟨empty, second.mp same' password rfl⟩
            · intro free
              obtain ⟨free, free'⟩ := free _ rfl
              refine ⟨first.mpr ?_, second.mpr ?_⟩
              · rintro _ ⟨⟩
                exact free
              · rintro _ ⟨⟩
                exact (free' _ rfl).2

theorem units_ascii {s : List Char} :
    (∀ unit ∈ utf16 s, unit < 128) ↔ ∀ c ∈ s, c.toNat < 128 := by
  have value (n : ℕ) (small : n < 2 ^ 16) : n.toUInt16.toNat = n := by
    rw [Nat.toUInt16, UInt16.toNat_ofNat']
    exact Nat.mod_eq_of_lt small
  constructor
  · intro ascii c mem
    by_contra large
    have first (unit : UInt16) (coded : unit ∈ Java.Utf8.ofChar c) :
        unit.toNat < 128 :=
      ascii unit (List.mem_flatMap.mpr ⟨c, mem, coded⟩)
    have bound : c.toNat < 0x110000 := by
      rcases c.valid with low | high
      · exact Nat.lt_trans low (by decide)
      · exact high.2
    unfold Java.Utf8.ofChar at first
    split_ifs at first with small
    · have unit := first _ List.mem_cons_self
      rw [value _ (by omega)] at unit
      exact large unit
    · have unit := first _ List.mem_cons_self
      rw [value _ (by omega)] at unit
      omega
  · intro ascii unit mem
    obtain ⟨c, there, coded⟩ := List.mem_flatMap.mp mem
    have small := ascii c there
    rw [ofChar_ascii small] at coded
    obtain rfl := List.mem_singleton.mp coded
    rw [UInt16.lt_iff_toNat_lt, char, value _ (by omega)]
    exact small

/-- The host and the port come out the same. -/
theorem host_iff {pair : Option (List Char × Option (List Char))}
    {port : Option (Fin 65536)}
    (number : Option.Rel
      (fun port n => digits.parseInt (utf16 (blank port)) =
        some ((n : Fin 65536).val : ℤ)) (pair.bind (·.2)) port) :
    (Option.Rel SameText ((pair.map (·.1)).map (utf16 ∘ blank))
        ((EtchURL.keptHost (pair.map (Parts.mapPair utf8))).map (·.1)) ∧
      port.map Fin.val =
        ((EtchURL.keptHost (pair.map (Parts.mapPair utf8))).map
          fun place => UInt16.ofInt (atoi place.2)).map UInt16.toNat) ↔
      ∀ both ∈ pair, '+' ∉ both.1 ∧
        ∃ port ∈ both.2, (∀ c ∈ port, c.toNat < 128) ∨
          digits.parseInt (utf16 port) = some 0 := by
  cases pair with
  | none =>
      cases number
      exact iff_of_true ⟨.none, rfl⟩ (by simp)
  | some both =>
      obtain ⟨host, behind⟩ := both
      cases behind with
      | none =>
          refine iff_of_false (by rintro ⟨⟨⟩, -⟩) fun free => ?_
          obtain ⟨port, there, -⟩ := (free _ rfl).2
          cases there
      | some s =>
          rw [Option.bind_some] at number
          cases number with
          | @some _ n parsed =>
              have nonempty : s ≠ [] := by
                rintro rfl
                cases parsed
              have kept : EtchURL.keptHost
                  ((some (host, some s)).map (Parts.mapPair utf8)) =
                    some (utf8 host, utf8 s) :=
                if_neg fun none => nonempty (encodes_utf8.eq_nil_iff.mp none)
              rw [← blanked_utf16] at parsed
              have value := atoi_eq_iff (sameText_iff.mpr rfl) parsed
              rw [units_ascii] at value
              have first := rel_blank (some host)
              have port : Option.map Fin.val (some n) =
                  ((some (utf8 host, utf8 s)).map fun place =>
                    UInt16.ofInt (atoi place.2)).map UInt16.toNat ↔
                      (UInt16.ofInt (atoi (utf8 s))).toNat = n.val := by
                rw [Option.map_some, Option.map_some, Option.map_some,
                  Option.some_inj]
                exact eq_comm
              rw [kept, port, value]
              constructor
              · rintro ⟨same, ascii⟩ _ ⟨⟩
                exact ⟨first.mp same host rfl, s, rfl, ascii⟩
              · intro free
                obtain ⟨free, _, ⟨⟩, ascii⟩ := free _ rfl
                refine ⟨first.mpr ?_, ascii⟩
                rintro _ ⟨⟩
                exact free

section

variable {pieces : List (List Char × Option (List Char))}

/-- The table that C++ makes. -/
def cppTable (pieces : List (List Char × Option (List Char))) : UrlTable :=
  (pieces.map (Parts.mapPair utf8)).foldl putPiece ∅

theorem mem_of_cppTable {name value : List Char}
    (found : (cppTable pieces).lookup (utf8 name) = some (utf8 value)) :
    (name, some value) ∈ pieces ∧ value ≠ [] := by
  obtain ⟨mem, nonempty⟩ := mem_of_lookup found
  obtain ⟨⟨other, behind⟩, there, same⟩ := List.mem_map.mp mem
  obtain ⟨names, values⟩ := Prod.mk.inj same
  obtain rfl := utf8_injective names
  cases behind with
  | none => cases values
  | some other =>
      obtain rfl := utf8_injective (Option.some.inj values)
      refine ⟨there, ?_⟩
      rintro rfl
      exact nonempty rfl

theorem cppTable_of_mem (nodup : (pieces.map (·.1)).Nodup)
    {name value : List Char} (mem : (name, some value) ∈ pieces)
    (nonempty : value ≠ []) :
    (cppTable pieces).lookup (utf8 name) = some (utf8 value) := by
  refine lookup_of_mem ?_ (List.mem_map.mpr ⟨_, mem, rfl⟩)
    (fun none => nonempty (encodes_utf8.eq_nil_iff.mp none))
  have names : (pieces.map (Parts.mapPair utf8)).map (·.1) =
      (pieces.map (·.1)).map utf8 := by
    rw [List.map_map, List.map_map]
    rfl
  rw [names]
  exact nodup.map utf8_injective

/-- The values that Java adds to a name. -/
def javaValues (pieces : List (List Char × Option (List Char)))
    (name : List Char) : List JavaString :=
  valuesOf (pieces.map javaPair) (utf16 name)

theorem gathers_javaValues
    (pieces : List (List Char × Option (List Char))) (name : List Char) :
    Gathers (javaValues pieces name)
      ((addPairs none (pieces.map javaPair)).ensureTerms.lookup
        (utf16 name)) := by
  rw [lookup_addPairs]
  exact gathers_built _

theorem javaValues_eq (name : List Char) :
    javaValues pieces name =
      (pieces.filter fun piece => blank piece.1 = name).map
        fun piece => utf16 (blank (piece.2.getD [])) := by
  unfold javaValues valuesOf
  rw [List.filter_map, List.map_map]
  have same : ((fun pair : JavaString × JavaString =>
      decide (pair.1 = utf16 name)) ∘ javaPair) =
        fun piece => decide (blank piece.1 = name) := by
    funext piece
    simp only [Function.comp_apply, javaPair, utf16_injective.eq_iff]
  rw [same]
  rfl

/-- If the terms are the same, a piece is the one that Java reads with its
name. -/
theorem SameTerms.of_mem
    (same : SameTerms (addPairs none (pieces.map javaPair)) (cppTable pieces))
    {piece : List Char × Option (List Char)} (mem : piece ∈ pieces) :
    (∃ value, piece = (blank piece.1, some (blank value)) ∧
        blank value ≠ []) ∧
      (pieces.filter fun other => blank other.1 = blank piece.1) =
        [piece] := by
  have gathers := gathers_javaValues pieces (blank piece.1)
  have listed := same (utf16 (blank piece.1)) (utf8 (blank piece.1))
    (sameText_iff.mpr rfl)
  rw [Java.Terms.values_eq] at listed
  have there : piece ∈
      pieces.filter fun other => blank other.1 = blank piece.1 :=
    List.mem_filter.mpr ⟨mem, by simp⟩
  have mem' : utf16 (blank (piece.2.getD [])) ∈
      javaValues pieces (blank piece.1) := by
    rw [javaValues_eq]
    exact List.mem_map.mpr ⟨piece, there, rfl⟩
  have few : (Java.Terms.elements
      ((addPairs none (pieces.map javaPair)).ensureTerms.lookup
        (utf16 (blank piece.1)))).length ≤ 1 := by
    rw [listed.length_eq]
    cases (cppTable pieces).lookup (utf8 (blank piece.1)) with
    | none => exact Nat.zero_le 1
    | some value => exact le_refl 1
  obtain ⟨single, value⟩ := gathers.eq_singleton mem' (.inr few)
  rw [javaValues_eq] at single
  obtain ⟨only, kept⟩ := List.length_eq_one_iff.mp
    ((List.length_map _).symm.trans (congrArg List.length single))
  have alone {other : List Char × Option (List Char)} (mem : other ∈ pieces)
      (named : blank other.1 = blank piece.1) : other = only := by
    have there : other ∈
        pieces.filter fun other => blank other.1 = blank piece.1 :=
      List.mem_filter.mpr ⟨mem, by simpa using named⟩
    rw [kept] at there
    exact List.mem_singleton.mp there
  rw [value] at listed
  generalize look : (cppTable pieces).lookup (utf8 (blank piece.1)) = found
    at listed
  cases found with
  | none => cases listed
  | some text =>
      rw [Option.toList_some] at listed
      cases listed with
      | cons texts _ =>
          obtain rfl := texts.right_unique (sameText_iff.mpr rfl)
          obtain ⟨read, nonempty⟩ := mem_of_cppTable look
          have equal := (alone read (blank_blank _)).trans
            (alone mem rfl).symm
          exact ⟨⟨_, equal.symm, nonempty⟩, by rw [kept, alone mem rfl]⟩

theorem count_first (name : List Char) :
    (pieces.map (·.1)).count name =
      (pieces.filter fun piece => piece.1 = name).length := by
  rw [List.count, List.countP_map, List.countP_eq_length_filter]
  have same : ((fun first : List Char => first == name) ∘
      fun piece : List Char × Option (List Char) => piece.1) =
        fun piece => decide (piece.1 = name) := by
    funext piece
    exact Bool.eq_iff_iff.mpr (by simp)
  rw [same]

/-- The terms come out the same. -/
theorem sameTerms_iff (pieces : List (List Char × Option (List Char))) :
    SameTerms (addPairs none (pieces.map javaPair)) (cppTable pieces) ↔
      (pieces.map (·.1)).Nodup ∧ ∀ piece ∈ pieces, '+' ∉ piece.1 ∧
        ∃ value ∈ piece.2, value ≠ [] ∧ '+' ∉ value := by
  constructor
  · intro same
    have good (piece : List Char × Option (List Char))
        (mem : piece ∈ pieces) : '+' ∉ piece.1 ∧
          ∃ value ∈ piece.2, value ≠ [] ∧ '+' ∉ value := by
      obtain ⟨⟨value, equal, nonempty⟩, -⟩ := same.of_mem mem
      rw [equal]
      exact ⟨plus_not_mem_blank _, blank value, rfl, nonempty,
        plus_not_mem_blank _⟩
    refine ⟨List.nodup_iff_count_le_one.mpr fun name => ?_, good⟩
    by_cases there : name ∈ pieces.map (·.1)
    · obtain ⟨piece, mem, rfl⟩ := List.mem_map.mp there
      rw [count_first]
      have fewer : (pieces.filter fun other => other.1 = piece.1).length ≤
          (pieces.filter fun other =>
            blank other.1 = blank piece.1).length := by
        refine (List.monotone_filter_right pieces ?_).length_le
        intro other named
        simp only [decide_eq_true_eq] at named ⊢
        rw [named]
      rw [(same.of_mem mem).2] at fewer
      exact fewer
    · rw [List.count_eq_zero_of_not_mem there]
      exact Nat.zero_le 1
  · rintro ⟨nodup, good⟩ _ _ ⟨name, rfl, rfl⟩
    rw [Java.Terms.values_eq]
    have gathers := gathers_javaValues pieces name
    have kept : (pieces.filter fun piece => blank piece.1 = name) =
        pieces.filter fun piece => piece.1 = name :=
      List.filter_congr fun piece mem => by
        rw [blank_eq_self.mpr (good piece mem).1]
    by_cases there : name ∈ pieces.map (·.1)
    · obtain ⟨⟨name, behind⟩, mem, rfl⟩ := List.mem_map.mp there
      obtain ⟨-, value, ⟨⟩, nonempty, free⟩ := good _ mem
      have mem' : utf16 (blank value) ∈ javaValues pieces name := by
        rw [javaValues_eq, kept]
        exact List.mem_map.mpr
          ⟨_, List.mem_filter.mpr ⟨mem, by simp⟩, rfl⟩
      have few : (javaValues pieces name).length ≤ 1 := by
        rw [javaValues_eq, kept, List.length_map, ← count_first]
        exact List.nodup_iff_count_le_one.mp nodup _
      have single := (gathers.eq_singleton mem' (.inl few)).2
      have found := cppTable_of_mem nodup mem nonempty
      have both : List.Forall₂ SameText [utf16 (blank value)]
          (some (utf8 value)).toList :=
        .cons (sameText_blank.mpr free) .nil
      rw [← single, ← found] at both
      exact both
    · have none : javaValues pieces name = [] := by
        rw [javaValues_eq, kept, List.map_eq_nil_iff, List.filter_eq_nil_iff]
        intro piece mem named
        exact there (List.mem_map.mpr ⟨piece, mem, by simpa using named⟩)
      rw [none] at gathers
      have unset : (cppTable pieces).lookup (utf8 name) = Option.none := by
        by_contra found
        obtain ⟨value, found⟩ := Option.ne_none_iff_exists'.mp found
        obtain ⟨mem, -⟩ := mem_of_lookup found
        obtain ⟨piece, mem, same⟩ := List.mem_map.mp mem
        exact there (List.mem_map.mpr
          ⟨piece, mem, utf8_injective (congrArg Prod.fst same)⟩)
      have nothing : List.Forall₂ SameText [] (Option.none : Option CString).toList :=
        .nil
      rw [← unset] at nothing
      have empty : Java.Terms.elements
          ((addPairs Option.none (pieces.map javaPair)).ensureTerms.lookup
            (utf16 name)) = [] := by
        generalize (addPairs Option.none
          (pieces.map javaPair)).ensureTerms.lookup (utf16 name) = term
          at gathers
        cases gathers with
        | none => rfl
        | more many => exact absurd many (by simp)
      rw [← empty] at nothing
      exact nothing

end

/-- The fields that both set are the same where the parts are alike. -/
theorem same_iff (fields : Fields digits parts url) :
    Same url (EtchURL.outcome (parts.map utf8)) ↔ Alike digits parts := by
  have user : (parts.map utf8).userPassword byte =
      (parts.userPassword id).map (Parts.mapPair utf8) :=
    parts.userPassword_map encodes_utf8
  have host : (parts.map utf8).hostPort byte =
      (parts.hostPort id).map (Parts.mapPair utf8) :=
    parts.hostPort_map encodes_utf8
  have pieces : (parts.map utf8).termPieces byte =
      (parts.termPieces id).map (Parts.mapPair utf8) :=
    parts.termPieces_map encodes_utf8
  have place : (parts.map utf8).uri = utf8 parts.uri := parts.uri_map
  have authority := EtchURL.outcome_authority (parts.map utf8)
  rw [user, host] at authority
  obtain ⟨scheme, uri, fragment, terms⟩ :=
    EtchURL.outcome_rest (parts.map utf8)
  rw [tableOf_eq, pieces] at terms
  rw [place] at uri
  have schemes := rel_blank (some parts.scheme)
  have uris := rel_blank (some parts.uri)
  have fragments := rel_blank parts.fragment
  have users := user_iff (parts.userPassword id)
  have hosts := host_iff fields.port
  rw [← fields.user, ← fields.password, ← authority.user,
    ← authority.password] at users
  rw [← fields.host, ← authority.host, ← authority.port] at hosts
  have tables := sameTerms_iff (parts.termPieces id)
  rw [cppTable, ← fields.terms, ← terms] at tables
  have schemes' : Option.Rel SameText url.scheme
      (EtchURL.outcome (parts.map utf8)).scheme ↔ '+' ∉ parts.scheme := by
    rw [fields.scheme, scheme]
    exact schemes.trans (by simp)
  have uris' : Option.Rel SameText url.uri
      (EtchURL.outcome (parts.map utf8)).uri ↔ '+' ∉ parts.uri := by
    rw [fields.uri, uri]
    exact uris.trans (by simp)
  have fragments' : Option.Rel SameText url.fragment
      (EtchURL.outcome (parts.map utf8)).fragment ↔
        ∀ s ∈ parts.fragment, '+' ∉ s := by
    rw [fields.fragment, fragment]
    exact fragments
  constructor
  · intro same
    obtain ⟨nodup, values⟩ := tables.mp same.terms
    exact ⟨schemes'.mp same.scheme, users.mp ⟨same.user, same.password⟩,
      hosts.mp ⟨same.host, same.port⟩, uris'.mp same.uri, nodup, values,
      fragments'.mp same.fragment⟩
  · intro alike
    obtain ⟨user, password⟩ := users.mpr alike.user
    obtain ⟨host, port⟩ := hosts.mpr alike.host
    exact ⟨schemes'.mpr alike.scheme, user, password, host, port,
      uris'.mpr alike.uri, tables.mpr ⟨alike.names, alike.values⟩,
      fragments'.mpr alike.fragment⟩

/-! ## Failing -/

/-- A call that returns early does not return `ETCH_OK`. -/
def Fails {α : Type} (result : Except EtchURL.Returned α) : Prop :=
  ∀ status url, result = .error (status, url) → status ≠ .ETCH_OK

namespace Fails

open EtchString EtchURL

variable {α β : Type}

theorem ok (value : α) : Fails (.ok value) := by
  rintro _ _ ⟨⟩

theorem bind {result : Except Returned α} {next : α → Except Returned β}
    (first : Fails result) (second : ∀ value, Fails (next value)) :
    Fails (result >>= next) := by
  cases result with
  | ok value => exact second value
  | error returned =>
      rintro status url ⟨⟩
      exact first status url rfl

theorem substring (s : CString) (start length : ℕ) {status : Status}
    (failed : EtchString.substring s start length = .error status) :
    status ≠ .ETCH_OK := by
  unfold EtchString.substring at failed
  split_ifs at failed
  cases failed
  rintro ⟨⟩

theorem orReturnWith (url : EtchURL) (s : CString) (found : Option ℕ) :
    Fails (EtchURL.orReturnWith url (substrings s found)) := by
  intro status url' failed
  unfold substrings at failed
  cases first : EtchString.substring s 0 (asLength found) with
  | error status' =>
      rw [first] at failed
      cases failed
      exact Fails.substring _ _ _ first
  | ok front =>
      rw [first] at failed
      cases second : EtchString.substring s (EtchString.next found)
          (s.length - EtchString.next found) with
      | error status' =>
          simp only [second] at failed
          cases failed
          exact Fails.substring _ _ _ second
      | ok back =>
          simp only [second] at failed
          cases failed

theorem orReturn (returned : Returned) :
    Fails (EtchURL.orReturn returned) := by
  obtain ⟨status, url⟩ := returned
  cases status with
  | ETCH_OK => exact .ok url
  | _ =>
      rintro _ _ ⟨⟩ ⟨⟩

theorem takeFragment (url : EtchURL) (s : CString) :
    Fails (url.takeFragment s) := by
  unfold EtchURL.takeFragment
  dsimp only
  split_ifs
  · exact (Fails.orReturnWith _ _ _).bind fun x => .ok _
  · exact .ok _

theorem takeTerms (url : EtchURL) (s : CString) : Fails (url.takeTerms s) := by
  unfold EtchURL.takeTerms
  dsimp only
  split_ifs
  · exact (Fails.orReturnWith _ _ _).bind fun x =>
      (Fails.orReturn _).bind fun url => .ok _
  · exact .ok _

theorem takeParams (url : EtchURL) (s : CString) :
    Fails (url.takeParams s) := by
  unfold EtchURL.takeParams
  dsimp only
  split_ifs
  · exact (Fails.orReturnWith _ _ _).bind fun x =>
      (Fails.orReturn _).bind fun url => .ok _
  · exact .ok _

theorem takeHost (url : EtchURL) (s : CString) : Fails (url.takeHost s) := by
  unfold EtchURL.takeHost
  dsimp only
  split_ifs
  · exact (Fails.orReturnWith _ _ _).bind fun x =>
      (Fails.orReturn _).bind fun url => .ok _
  · exact (Fails.orReturn _).bind fun url => .ok _
  · exact .ok _

theorem parse (url : EtchURL) (s : CString) : Fails (url.parse s) := by
  unfold EtchURL.parse
  dsimp only
  split_ifs
  · rintro _ _ ⟨⟩ ⟨⟩
  refine (Fails.orReturnWith _ _ _).bind fun x => ?_
  refine (Fails.takeFragment _ _).bind fun x => ?_
  refine (Fails.takeTerms _ _).bind fun x => ?_
  refine (Fails.takeParams _ _).bind fun x => ?_
  exact (Fails.takeHost _ _).bind fun x => .ok _

end Fails

/-! ## The two parsers -/

/-- A text without escape sequences, as long as `EtchString::length` can tell,
and without the character that ends a C string. -/
structure UrlText where
  chars : List Char
  plain : '%' ∉ chars
  ended : Char.ofNat 0 ∉ chars
  fits : (utf8 chars).length < 2 ^ 31

/-- Both accept the text or neither, and the fields are the same. -/
structure Agree (digits : Digits) (chars : List Char) : Prop where
  accepts : (∃ url, Url.ofString digits (some (utf16 chars)) = .ok url) ↔
    ∃ url, EtchURL.ofString (utf8 chars) = (.ETCH_OK, url)
  same : ∀ url url', Url.ofString digits (some (utf16 chars)) = .ok url →
    EtchURL.ofString (utf8 chars) = (.ETCH_OK, url') → Same url url'

/-- Both want the parts and they are alike, or neither wants them. -/
def Meets (digits : Digits) (chars : List Char) : Prop :=
  ∀ parts ∈ Parts.of id chars,
    (Readable digits parts ∧ Parts.Taken id parts ∧ Alike digits parts) ∨
      (¬ Readable digits parts ∧ ¬ Parts.Taken id parts)

variable (text : UrlText)

/-- What Java accepts. -/
theorem java_eq_ok_iff (nonempty : text.chars ≠ []) :
    Url.ofString digits (some (utf16 text.chars)) = .ok url ↔
      ∃ parts ∈ Parts.of id text.chars,
        Url.Reads digits (piecesOf (parts.map utf16)) url := by
  have pieces : Url.pieces (utf16 text.chars) =
      (Parts.of id text.chars).map fun parts => piecesOf (parts.map utf16) := by
    rw [pieces_eq]
    have transported : Parts.of char (utf16 text.chars) =
        (Parts.of id text.chars).map (Parts.map utf16) :=
      Parts.of_flatMap encodes_utf16 text.chars
    rw [transported, Option.map_map]
    rfl
  have long : 0 < (utf16 text.chars).length :=
    List.length_pos_iff.mpr fun none => nonempty (utf16_eq_nil.mp none)
  rw [Url.ofString, if_pos long, Url.parse_eq_ok_iff, pieces]
  cases Parts.of id text.chars with
  | none => simp
  | some parts => simp

/-- What C++ accepts. -/
theorem cpp_eq_ok_iff {url' : EtchURL} (nonempty : text.chars ≠ []) :
    EtchURL.ofString (utf8 text.chars) = (.ETCH_OK, url') ↔
      ∃ parts ∈ Parts.of id text.chars, Parts.Taken id parts ∧
        url' = EtchURL.outcome (parts.map utf8) := by
  have transported : Parts.of byte (utf8 text.chars) =
      (Parts.of id text.chars).map (Parts.map utf8) :=
    Parts.of_flatMap encodes_utf8 text.chars
  have taken (parts : Parts Char) :
      Parts.Taken byte (parts.map utf8) ↔ Parts.Taken id parts :=
    parts.taken_map encodes_utf8
  have long : 0 < (utf8 text.chars).length :=
    List.length_pos_iff.mpr fun none =>
      nonempty (encodes_utf8.eq_nil_iff.mp none)
  have parsed := @EtchURL.parse_eq_ok_iff url' _
    (Nat.lt_trans text.fits (by decide))
  rw [transported] at parsed
  have accepted : EtchURL.ofString (utf8 text.chars) = (.ETCH_OK, url') ↔
      EtchURL.parse {} (utf8 text.chars) = .ok url' := by
    rw [EtchURL.ofString, if_pos long]
    cases result : EtchURL.parse {} (utf8 text.chars) with
    | ok url => simp
    | error returned =>
        obtain ⟨status, url⟩ := returned
        have failed := Fails.parse _ _ _ _ result
        simp [failed]
  rw [accepted, parsed]
  cases Parts.of id text.chars with
  | none => simp
  | some parts => simp [taken]

theorem java_accepts_iff (nonempty : text.chars ≠ []) :
    (∃ url, Url.ofString digits (some (utf16 text.chars)) = .ok url) ↔
      ∃ parts ∈ Parts.of id text.chars, Readable digits parts := by
  simp only [java_eq_ok_iff text nonempty]
  constructor
  · rintro ⟨url, parts, found, reads⟩
    exact ⟨parts, found, (fields_of_reads (plain_of text.plain found) reads).1⟩
  · rintro ⟨parts, found, readable⟩
    obtain ⟨url, reads⟩ := exists_reads (plain_of text.plain found) readable
    exact ⟨url, parts, found, reads⟩

theorem cpp_accepts_iff (nonempty : text.chars ≠ []) :
    (∃ url, EtchURL.ofString (utf8 text.chars) = (.ETCH_OK, url)) ↔
      ∃ parts ∈ Parts.of id text.chars, Parts.Taken id parts := by
  simp only [cpp_eq_ok_iff text nonempty]
  constructor
  · rintro ⟨url, parts, found, taken, -⟩
    exact ⟨parts, found, taken⟩
  · rintro ⟨parts, found, taken⟩
    exact ⟨_, parts, found, taken, rfl⟩

/-- Both leave every field of an empty text unset. -/
theorem agree_nil : Agree digits [] := by
  have unset : Same {} {} := by
    refine ⟨.none, .none, .none, .none, rfl, .none, ?_, .none⟩
    intro _ _ _
    exact .nil
  refine ⟨iff_of_true ⟨{}, rfl⟩ ⟨{}, rfl⟩, ?_⟩
  rintro _ _ ⟨⟩ ⟨⟩
  exact unset

theorem agree_of_meets (meets : Meets digits text.chars) :
    Agree digits text.chars := by
  by_cases empty : text.chars = []
  · rw [empty]
    exact agree_nil
  refine ⟨?_, fun url url' java cpp => ?_⟩
  · rw [java_accepts_iff text empty, cpp_accepts_iff text empty]
    refine exists_congr fun parts => and_congr_right fun found => ?_
    rcases meets parts found with ⟨readable, taken, -⟩ | ⟨blank, refused⟩
    · exact iff_of_true readable taken
    · exact iff_of_false blank refused
  · obtain ⟨parts, found, reads⟩ := (java_eq_ok_iff text empty).mp java
    obtain ⟨others, found', taken, rfl⟩ := (cpp_eq_ok_iff text empty).mp cpp
    obtain rfl := Option.some.inj (found.symm.trans found')
    have fields := (fields_of_reads (plain_of text.plain found) reads).2
    rcases meets parts found with ⟨-, -, alike⟩ | ⟨-, refused⟩
    · exact (same_iff fields).mpr alike
    · exact absurd taken refused

theorem meets_of_agree (agree : Agree digits text.chars) :
    Meets digits text.chars := by
  intro parts found
  have nonempty : text.chars ≠ [] := by
    intro empty
    rw [empty] at found
    cases found
  have java := @java_accepts_iff digits text nonempty
  have cpp := cpp_accepts_iff text nonempty
  have only {good : Parts Char → Prop} :
      (∃ others ∈ Parts.of id text.chars, good others) ↔ good parts := by
    constructor
    · rintro ⟨others, found', holds⟩
      obtain rfl := Option.some.inj (found.symm.trans found')
      exact holds
    · exact fun holds => ⟨parts, found, holds⟩
  rw [only] at java cpp
  by_cases readable : Readable digits parts
  · obtain ⟨url, reads⟩ := java.mpr readable
    have taken := cpp.mp (agree.accepts.mp ⟨url, reads⟩)
    obtain ⟨url', parsed⟩ := cpp.mpr taken
    obtain ⟨others, found', read⟩ := (java_eq_ok_iff text nonempty).mp reads
    obtain rfl := Option.some.inj (found.symm.trans found')
    have fields := (fields_of_reads (plain_of text.plain found) read).2
    have same := agree.same url url' reads parsed
    obtain ⟨others, found', -, rfl⟩ := (cpp_eq_ok_iff text nonempty).mp parsed
    obtain rfl := Option.some.inj (found.symm.trans found')
    exact .inl ⟨readable, taken, (same_iff fields).mp same⟩
  · refine .inr ⟨readable, fun taken => readable ?_⟩
    exact java.mp (agree.accepts.mpr (cpp.mpr taken))

/-- The two parsers agree on a text without escape sequences if both refuse
it, or both accept it and its parts are alike. -/
theorem agree_iff_meets (digits : Digits) (text : UrlText) :
    Agree digits text.chars ↔ Meets digits text.chars :=
  ⟨meets_of_agree text, agree_of_meets text⟩

/-- A host without a port is dropped. -/
theorem lone_host_differs :
    ¬ ∀ (digits : Digits) (text : UrlText), Agree digits text.chars := by
  intro agrees
  have agree := agrees Java.asciiDigits
    ⟨"tcp://localhost/x".toList, by decide, by decide, by decide⟩
  have found : Parts.of id "tcp://localhost/x".toList =
      some (Parts.ofRest id "tcp".toList "//localhost/x".toList) := rfl
  rcases meets_of_agree _ agree _ found with ⟨-, -, alike⟩ | ⟨-, refused⟩
  · obtain ⟨-, port, there, -⟩ := alike.host
      ("localhost".toList, none) (by decide)
    cases there
  · refine refused ⟨by decide, by decide, ?_, ?_, by decide, by decide⟩
    · rintro _ ⟨⟩
    · rintro _ ⟨⟩

end Etch.Cpp
