import Etch.Cpp.UrlTables

/-!
# What Java reads of a text

A text without escape sequences is accepted if its names are not blank and its
port is a number.  The fields are its parts, in which a plus sign is read as a
blank.
-/

namespace Etch.Cpp

open Etch.Java (JavaString Digits Terms Url char)
open Etch.Java.Url (Denotes DenotesPort DenotesTerm DenotesTerms Pieces
  addPairs denotes_none denotes_some)
open Etch.Library.Splitting

/-! ## The pieces that Java reads -/

/-- The pieces of the parts. -/
def piecesOf (parts : Parts UInt16) : Pieces where
  scheme := parts.scheme
  user := (parts.userPassword char).map (·.1)
  password := (parts.userPassword char).bind (·.2)
  host := (parts.hostPort char).map (·.1)
  port := (parts.hostPort char).bind (·.2)
  uri := parts.uri
  params := Url.paramPieces parts.params
  terms := (parts.termPieces char).map fun piece => (piece.1, piece.2.getD [])
  fragment := parts.fragment

theorem termPieces_eq (parts : Parts UInt16) :
    Url.termPieces parts.terms =
      (parts.termPieces char).map fun piece => (piece.1, piece.2.getD []) := by
  unfold Url.termPieces Parts.termPieces
  cases parts.terms with
  | none => rfl
  | some terms => rw [List.map_map]; rfl

theorem restPieces_eq (scheme rest : JavaString) :
    Url.restPieces scheme rest = piecesOf (Parts.ofRest char scheme rest) := by
  have slashes : Java.text "//" = [char '/', char '/'] := by decide
  have terms := termPieces_eq (Parts.ofRest char scheme rest)
  unfold Url.restPieces piecesOf
  rw [← terms]
  unfold Url.uriPieces Parts.userPassword Parts.hostPort Parts.uri
    Parts.ofRest
  dsimp only
  rw [slashes]
  split_ifs
  · unfold Url.authorityPieces
    dsimp only [Option.bind_some, Option.map_some]
    split
    · rename_i parts
      simp only [parts]
      rfl
    · rename_i parts
      simp only [parts]
      rfl
  · rfl

theorem pieces_eq (a : JavaString) :
    Url.pieces a = (Parts.of char a).map piecesOf := by
  unfold Url.pieces Parts.of
  cases cut (char ':') a with
  | mk scheme rest =>
      cases rest with
      | none => rfl
      | some rest => exact congrArg some (restPieces_eq scheme rest)

/-! ## Texts without escape sequences -/

theorem not_mem_cut_of {c d : Char} {s : List Char} (free : c ∉ s) :
    c ∉ (cut d s).1 ∧ ∀ back ∈ (cut d s).2, c ∉ back := by
  rw [← joined_cut d s] at free
  cases behind : (cut d s).2 with
  | none =>
      rw [behind, joined_none] at free
      exact ⟨free, by simp⟩
  | some back =>
      rw [behind, joined_some, List.mem_append, List.mem_cons, not_or,
        not_or] at free
      refine ⟨free.1, fun other mem => ?_⟩
      obtain rfl := Option.some.inj mem
      exact free.2.2

/-- No part has an escape sequence. -/
structure Plain (parts : Parts Char) : Prop where
  scheme : '%' ∉ parts.scheme
  user : ∀ pair ∈ parts.userPassword id,
    '%' ∉ pair.1 ∧ ∀ password ∈ pair.2, '%' ∉ password
  host : ∀ pair ∈ parts.hostPort id,
    '%' ∉ pair.1 ∧ ∀ port ∈ pair.2, '%' ∉ port
  uri : '%' ∉ parts.uri
  params : ∀ params ∈ parts.params, '%' ∉ params
  terms : ∀ piece ∈ parts.termPieces id,
    '%' ∉ piece.1 ∧ ∀ value ∈ piece.2, '%' ∉ value
  fragment : ∀ fragment ∈ parts.fragment, '%' ∉ fragment

theorem not_mem_of_splitOn {c d : Char} {s piece : List Char} (free : c ∉ s)
    (mem : piece ∈ s.splitOn d) : c ∉ piece := by
  induction size : s.length using Nat.strong_induction_on
    generalizing s with
  | _ n ih =>
      have both := not_mem_cut_of (d := d) free
      rw [splitOn_eq_cut] at mem
      cases parts : cut d s with
      | mk front back =>
          rw [parts] at mem both
          cases back with
          | none =>
              obtain rfl := List.mem_singleton.mp mem
              exact both.1
          | some back =>
              have shorter := length_lt_of_cut parts
              rcases List.mem_cons.mp mem with rfl | mem
              · exact both.1
              · exact ih _ (by omega) (both.2 back rfl) mem rfl

theorem plain_of {text : List Char} (free : '%' ∉ text) {parts : Parts Char}
    (found : Parts.of id text = some parts) : Plain parts := by
  unfold Parts.of at found
  have first := not_mem_cut_of (d := ':') free
  rw [id_eq] at found
  cases halves : cut ':' text with
  | mk scheme rest =>
      rw [halves] at found first
      cases rest with
      | none => cases found
      | some rest =>
          obtain rfl := Option.some.inj found
          have fragment := not_mem_cut_of (d := '#') (first.2 rest rfl)
          have terms := not_mem_cut_of (d := '?') fragment.1
          have params := not_mem_cut_of (d := ';') terms.1
          have dropped : '%' ∉ (cut ';' (cut '?' (cut '#' rest).1).1).1.drop 2 :=
            fun mem => params.1 (List.mem_of_mem_drop mem)
          have slash := not_mem_cut_of (d := '/') dropped
          have owner := not_mem_cut_of (d := '@') slash.1
          refine ⟨first.1, ?_, ?_, ?_, params.2, ?_, fragment.2⟩
          · unfold Parts.userPassword Parts.ofRest
            dsimp only [id_eq]
            split_ifs
            · dsimp only [Option.bind_some]
              split
              · rename_i parts
                rw [parts] at owner
                rintro _ ⟨⟩
                exact not_mem_cut_of owner.1
              · simp
            · simp
          · unfold Parts.hostPort Parts.ofRest
            dsimp only [id_eq]
            split_ifs
            · dsimp only [Option.map_some]
              split
              · rename_i parts
                rw [parts] at owner
                rintro _ ⟨⟩
                exact not_mem_cut_of (owner.2 _ rfl)
              · rename_i parts
                rw [parts] at owner
                rintro _ ⟨⟩
                exact not_mem_cut_of owner.1
            · simp
          · unfold Parts.uri Parts.ofRest
            dsimp only [id_eq]
            split_ifs
            · dsimp only
              cases behind : (cut '/' ((cut ';' (cut '?'
                (cut '#' rest).1).1).1.drop 2)).2 with
              | none => exact List.not_mem_nil
              | some back => exact slash.2 back behind
            · exact params.1
          · unfold Parts.termPieces Parts.ofRest
            dsimp only [id_eq]
            intro piece mem
            split at mem
            · cases mem
            · rename_i found
              obtain ⟨s, there, rfl⟩ := List.mem_map.mp mem
              exact not_mem_cut_of (not_mem_of_splitOn
                (terms.2 _ found) (List.mem_filter.mp there).1)

/-! ## What Java reads -/

variable {digits : Digits} {parts : Parts Char} {url : Url}

/-- The parts are accepted by Java: the names are not blank and the port is a
number. -/
structure Readable (digits : Digits) (parts : Parts Char) : Prop where
  scheme : parts.scheme ≠ []
  user : ∀ pair ∈ parts.userPassword id, pair.1 ≠ []
  host : ∀ pair ∈ parts.hostPort id, pair.1 ≠ []
  port : ∀ pair ∈ parts.hostPort id, ∀ port ∈ pair.2, ∃ n : Fin 65536,
    digits.parseInt (utf16 (blank port)) = some (n.val : ℤ)
  terms : ∀ piece ∈ parts.termPieces id, piece.1 ≠ []
  fragment : parts.fragment ≠ some []

/-- The names and values that Java adds. -/
def javaPair (piece : List Char × Option (List Char)) :
    JavaString × JavaString :=
  (utf16 (blank piece.1), utf16 (blank (piece.2.getD [])))

/-- The fields that Java sets. -/
structure Fields (digits : Digits) (parts : Parts Char) (url : Url) :
    Prop where
  scheme : url.scheme = some (utf16 (blank parts.scheme))
  user : url.user =
    ((parts.userPassword id).map (·.1)).map (utf16 ∘ blank)
  password : url.password =
    ((parts.userPassword id).bind (·.2)).map (utf16 ∘ blank)
  host : url.host = ((parts.hostPort id).map (·.1)).map (utf16 ∘ blank)
  port : Option.Rel
    (fun port n => digits.parseInt (utf16 (blank port)) =
      some ((n : Fin 65536).val : ℤ))
    ((parts.hostPort id).bind (·.2)) url.port
  uri : url.uri = some (utf16 (blank parts.uri))
  terms : url.terms = addPairs none ((parts.termPieces id).map javaPair)
  fragment : url.fragment = parts.fragment.map (utf16 ∘ blank)

theorem denotes_utf16 {value : Option JavaString}
    (part : Option (List Char)) (plain : ∀ s ∈ part, '%' ∉ s) :
    Denotes (part.map utf16) value ↔ value = part.map (utf16 ∘ blank) := by
  cases part with
  | none => exact denotes_none
  | some s =>
      rw [Option.map_some, denotes_some, unescape_utf16 (plain s rfl)]
      simp

theorem denotesPort_utf16 {part : Option (List Char)}
    {port : Option (Fin 65536)} (plain : ∀ s ∈ part, '%' ∉ s) :
    DenotesPort digits (part.map utf16) port ↔
      Option.Rel (fun port n => digits.parseInt (utf16 (blank port)) =
        some ((n : Fin 65536).val : ℤ)) part port := by
  cases part with
  | none =>
      rw [Option.map_none]
      cases port with
      | none => exact iff_of_true .none .none
      | some port => exact iff_of_false (by rintro ⟨⟩) (by rintro ⟨⟩)
  | some s =>
      rw [Option.map_some]
      cases port with
      | none => exact iff_of_false (by rintro ⟨⟩) (by rintro ⟨⟩)
      | some port =>
          have read := unescape_utf16 (plain s rfl)
          constructor
          · rintro ⟨value, unescaped, number⟩
            rw [read] at unescaped
            obtain rfl := Except.ok.inj unescaped
            exact .some number
          · rintro ⟨number⟩
            exact .some ⟨_, read, number⟩

/-- What stands for each of some things, where one thing does for each. -/
theorem forall₂_iff_map {α β : Type} {stands : α → β → Prop} {value : α → β}
    {good : α → Prop} {things : List α} {values : List β}
    (each : ∀ thing ∈ things, ∀ other,
      stands thing other ↔ good thing ∧ other = value thing) :
    List.Forall₂ stands things values ↔
      (∀ thing ∈ things, good thing) ∧ values = things.map value := by
  induction things generalizing values with
  | nil =>
      rw [List.forall₂_nil_left_iff]
      simp
  | cons thing things ih =>
      have rest {values : List β} : List.Forall₂ stands things values ↔
          (∀ thing ∈ things, good thing) ∧ values = things.map value :=
        ih fun other mem => each other (List.mem_cons_of_mem _ mem)
      rw [List.forall₂_cons_left_iff, List.forall_mem_cons]
      constructor
      · rintro ⟨first, values, stands, all, rfl⟩
        obtain ⟨here, rfl⟩ := (each thing List.mem_cons_self first).mp stands
        obtain ⟨there, rfl⟩ := rest.mp all
        exact ⟨⟨here, there⟩, rfl⟩
      · rintro ⟨⟨here, there⟩, rfl⟩
        exact ⟨_, _, (each thing List.mem_cons_self _).mpr ⟨here, rfl⟩,
          rest.mpr ⟨there, rfl⟩, rfl⟩

theorem denotesTerms_utf16
    {pieces : List (List Char × Option (List Char))} {terms : Terms}
    (plain : ∀ piece ∈ pieces, '%' ∉ piece.1 ∧ ∀ value ∈ piece.2, '%' ∉ value) :
    DenotesTerms ((pieces.map (Parts.mapPair utf16)).map
        fun piece => (piece.1, piece.2.getD [])) terms ↔
      (∀ piece ∈ pieces, piece.1 ≠ []) ∧
        terms = addPairs none (pieces.map javaPair) := by
  have term (piece : List Char × Option (List Char)) (mem : piece ∈ pieces)
      (pair : JavaString × JavaString) :
      DenotesTerm (utf16 piece.1, (piece.2.map utf16).getD []) pair ↔
        piece.1 ≠ [] ∧ pair = javaPair piece := by
    have value : (piece.2.map utf16).getD [] = utf16 (piece.2.getD []) := by
      cases piece.2 with
      | none => rfl
      | some value => rfl
    have plainValue : '%' ∉ piece.2.getD [] := by
      cases found : piece.2 with
      | none => exact List.not_mem_nil
      | some value => exact (plain piece mem).2 value found
    have first := unescape_utf16 (plain piece mem).1
    have second := unescape_utf16 plainValue
    rw [value]
    constructor
    · rintro ⟨name, value, named⟩
      rw [first] at name
      rw [second] at value
      have name' := Except.ok.inj name
      have value' := Except.ok.inj value
      refine ⟨?_, Prod.ext name'.symm value'.symm⟩
      rintro empty
      rw [← name', empty] at named
      exact named rfl
    · rintro ⟨named, rfl⟩
      refine ⟨first, second, ?_⟩
      rw [javaPair, ne_eq, utf16_eq_nil, blank_eq_nil]
      exact named
  unfold DenotesTerms
  rw [List.map_map]
  have all (pairs : List (JavaString × JavaString)) :
      List.Forall₂ DenotesTerm
          (pieces.map ((fun piece => (piece.1, piece.2.getD [])) ∘
            Parts.mapPair utf16)) pairs ↔
        (∀ piece ∈ pieces, piece.1 ≠ []) ∧ pairs = pieces.map javaPair :=
    List.forall₂_map_left_iff.trans (forall₂_iff_map term)
  simp only [all]
  constructor
  · rintro ⟨pairs, ⟨named, rfl⟩, rfl⟩
    exact ⟨named, rfl⟩
  · rintro ⟨named, rfl⟩
    exact ⟨_, ⟨named, rfl⟩, rfl⟩

/-- The pieces of a text in UTF-16. -/
theorem piecesOf_map (parts : Parts Char) :
    piecesOf (parts.map utf16) =
      { scheme := utf16 parts.scheme
        user := ((parts.userPassword id).map (·.1)).map utf16
        password := ((parts.userPassword id).bind (·.2)).map utf16
        host := ((parts.hostPort id).map (·.1)).map utf16
        port := ((parts.hostPort id).bind (·.2)).map utf16
        uri := utf16 parts.uri
        params := Url.paramPieces (parts.params.map utf16)
        terms := ((parts.termPieces id).map (Parts.mapPair utf16)).map
          fun piece => (piece.1, piece.2.getD [])
        fragment := parts.fragment.map utf16 } := by
  have user : (parts.map utf16).userPassword char =
      (parts.userPassword id).map (Parts.mapPair utf16) :=
    parts.userPassword_map encodes_utf16
  have host : (parts.map utf16).hostPort char =
      (parts.hostPort id).map (Parts.mapPair utf16) :=
    parts.hostPort_map encodes_utf16
  have terms : (parts.map utf16).termPieces char =
      (parts.termPieces id).map (Parts.mapPair utf16) :=
    parts.termPieces_map encodes_utf16
  have uri : (parts.map utf16).uri = utf16 parts.uri := parts.uri_map
  have firsts (pair : Option (List Char × Option (List Char))) :
      (pair.map (Parts.mapPair utf16)).map (·.1) =
        (pair.map (·.1)).map utf16 := by
    cases pair with
    | none => rfl
    | some pair => rfl
  have seconds (pair : Option (List Char × Option (List Char))) :
      (pair.map (Parts.mapPair utf16)).bind (·.2) =
        (pair.bind (·.2)).map utf16 := by
    cases pair with
    | none => rfl
    | some pair => rfl
  unfold piecesOf
  rw [user, host, terms, uri, firsts, seconds, firsts, seconds]
  rfl

/-- A pair has no escape sequence in any of its parts. -/
theorem plain_pair {pair : Option (List Char × Option (List Char))}
    (plain : ∀ both ∈ pair, '%' ∉ both.1 ∧ ∀ second ∈ both.2, '%' ∉ second) :
    (∀ s ∈ pair.map (·.1), '%' ∉ s) ∧ ∀ s ∈ pair.bind (·.2), '%' ∉ s := by
  cases pair with
  | none => simp
  | some both =>
      obtain ⟨first, second⟩ := plain both rfl
      refine ⟨?_, second⟩
      rintro _ ⟨⟩
      exact first

theorem ne_some_nil_iff {part : Option (List Char)} :
    part.map (utf16 ∘ blank) ≠ some [] ↔ part ≠ some [] := by
  cases part with
  | none => simp
  | some part => simp [utf16_eq_nil, blank_eq_nil]

theorem forall_first_iff {pair : Option (List Char × Option (List Char))} :
    (∀ both ∈ pair, both.1 ≠ []) ↔ pair.map (·.1) ≠ some [] := by
  cases pair with
  | none => simp
  | some both => simp

/-- What Java accepts, and the fields it sets then. -/
theorem fields_of_reads (plain : Plain parts)
    (reads : Url.Reads digits (piecesOf (parts.map utf16)) url) :
    Readable digits parts ∧ Fields digits parts url := by
  rw [piecesOf_map] at reads
  have user := plain_pair plain.user
  have host := plain_pair plain.host
  have scheme : url.scheme = (some parts.scheme).map (utf16 ∘ blank) :=
    (denotes_utf16 (some parts.scheme)
      (by rintro _ ⟨⟩; exact plain.scheme)).mp reads.scheme
  have uri : url.uri = (some parts.uri).map (utf16 ∘ blank) :=
    (denotes_utf16 (some parts.uri)
      (by rintro _ ⟨⟩; exact plain.uri)).mp reads.uri
  have user' := (denotes_utf16 _ user.1).mp reads.user
  have host' := (denotes_utf16 _ host.1).mp reads.host
  have port := (denotesPort_utf16 host.2).mp reads.port
  have fragment := (denotes_utf16 _ plain.fragment).mp reads.fragment
  obtain ⟨named, terms⟩ := (denotesTerms_utf16 plain.terms).mp reads.terms
  refine ⟨⟨?_, ?_, ?_, ?_, named, ?_⟩, scheme, user',
    (denotes_utf16 _ user.2).mp reads.password, host', port, uri, terms,
    fragment⟩
  · intro empty
    have blankScheme := reads.schemeNamed
    rw [scheme, ne_some_nil_iff, empty] at blankScheme
    exact blankScheme rfl
  · rw [forall_first_iff, ← ne_some_nil_iff, ← user']
    exact reads.userNamed
  · rw [forall_first_iff, ← ne_some_nil_iff, ← host']
    exact reads.hostNamed
  · intro pair found s there
    rw [Option.mem_def] at found there
    rw [found, Option.bind_some, there] at port
    generalize url.port = set at port
    cases port with
    | some number => exact ⟨_, number⟩
  · rw [← ne_some_nil_iff, ← fragment]
    exact reads.fragmentNamed

/-- The params can always be read. -/
theorem exists_params {params : Option (List Char)}
    (plain : ∀ s ∈ params, '%' ∉ s) :
    ∃ values, Url.DenotesParams (Url.paramPieces (params.map utf16)) values := by
  unfold Url.paramPieces
  cases params with
  | none => exact ⟨none, .none⟩
  | some s =>
      dsimp only [Option.map_some]
      split_ifs with empty
      · exact ⟨none, .none⟩
      · refine ⟨some ((s.splitOn ';').map (utf16 ∘ blank)), .some ?_⟩
        have pieces : (utf16 s).splitOn (char ';') =
            (s.splitOn ';').map utf16 :=
          encodes_utf16.splitOn_eq (by decide) s
        rw [pieces, List.forall₂_map_left_iff, List.forall₂_map_right_iff,
          List.forall₂_same]
        exact fun piece mem =>
          unescape_utf16 (not_mem_of_splitOn (plain s rfl) mem)

theorem exists_port
    (readable : ∀ pair ∈ parts.hostPort id, ∀ port ∈ pair.2,
      ∃ n : Fin 65536,
        digits.parseInt (utf16 (blank port)) = some (n.val : ℤ)) :
    ∃ port, Option.Rel
      (fun port n => digits.parseInt (utf16 (blank port)) =
        some ((n : Fin 65536).val : ℤ))
      ((parts.hostPort id).bind (·.2)) port := by
  cases found : parts.hostPort id with
  | none => exact ⟨none, .none⟩
  | some pair =>
      rw [Option.bind_some]
      cases there : pair.2 with
      | none => exact ⟨none, .none⟩
      | some port =>
          obtain ⟨n, number⟩ := readable pair found port there
          exact ⟨some n, .some number⟩

theorem exists_reads (plain : Plain parts) (readable : Readable digits parts) :
    ∃ url, Url.Reads digits (piecesOf (parts.map utf16)) url := by
  have user := plain_pair plain.user
  have host := plain_pair plain.host
  obtain ⟨params, paramsRead⟩ := exists_params plain.params
  obtain ⟨port, portRead⟩ := exists_port readable.port
  have only (s : List Char) (free : '%' ∉ s) :
      Denotes (some (utf16 s)) (some (utf16 (blank s))) :=
    .some (unescape_utf16 free)
  rw [piecesOf_map]
  exact ⟨
    { scheme := some (utf16 (blank parts.scheme))
      user := ((parts.userPassword id).map (·.1)).map (utf16 ∘ blank)
      password := ((parts.userPassword id).bind (·.2)).map (utf16 ∘ blank)
      host := ((parts.hostPort id).map (·.1)).map (utf16 ∘ blank)
      port
      uri := some (utf16 (blank parts.uri))
      params
      terms := addPairs none ((parts.termPieces id).map javaPair)
      fragment := parts.fragment.map (utf16 ∘ blank) },
    { scheme := only _ plain.scheme
      user := (denotes_utf16 _ user.1).mpr rfl
      password := (denotes_utf16 _ user.2).mpr rfl
      host := (denotes_utf16 _ host.1).mpr rfl
      port := (denotesPort_utf16 host.2).mpr portRead
      uri := only _ plain.uri
      params := paramsRead
      terms := (denotesTerms_utf16 plain.terms).mpr ⟨readable.terms, rfl⟩
      fragment := (denotes_utf16 _ plain.fragment).mpr rfl
      schemeNamed := by
        simpa [utf16_eq_nil, blank_eq_nil] using readable.scheme
      userNamed :=
        ne_some_nil_iff.mpr (forall_first_iff.mp readable.user)
      hostNamed :=
        ne_some_nil_iff.mpr (forall_first_iff.mp readable.host)
      fragmentNamed := ne_some_nil_iff.mpr readable.fragment }⟩

end Etch.Cpp
