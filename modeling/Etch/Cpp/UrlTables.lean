import Etch.Cpp.UrlTexts
import Etch.Java.UrlEscaping
import Etch.Java.UrlPairs

/-!
# Terms in Java and in C++

Java has a list of values for each name, C++ the last value that is not empty.
The two are the same if every name comes once, with a value, and nothing has a
plus sign, which Java reads as a blank.
-/

namespace Etch.Cpp

open Etch.Java (JavaString Term Terms char)
open Etch.Java.Url (addPairs valuesOf mem_valuesOf lookup_addPairs)
open Etch.Library.Splitting

/-! ## Plus signs -/

/-- What a text is read as that has no escape sequence. -/
def blank (s : List Char) : List Char :=
  s.map fun c => if c = '+' then ' ' else c

theorem blank_eq_self {s : List Char} : blank s = s ↔ '+' ∉ s := by
  induction s with
  | nil => exact iff_of_true rfl List.not_mem_nil
  | cons c s ih =>
      rw [blank, List.map_cons, List.cons.injEq, List.mem_cons, not_or]
      refine and_congr ?_ ih
      split_ifs with plus
      · subst plus
        exact iff_of_false (by decide) fun other => other rfl
      · exact iff_of_true rfl (Ne.symm plus)

theorem plus_not_mem_blank (s : List Char) : '+' ∉ blank s := by
  intro mem
  obtain ⟨c, -, same⟩ := List.mem_map.mp mem
  split_ifs at same with plus
  · exact absurd same (by decide)
  · exact plus same

theorem blank_blank (s : List Char) : blank (blank s) = blank s :=
  blank_eq_self.mpr (plus_not_mem_blank s)

theorem blank_eq_nil {s : List Char} : blank s = [] ↔ s = [] :=
  List.map_eq_nil_iff

/-- The text in UTF-16. -/
def utf16 (s : List Char) : JavaString :=
  s.flatMap Java.Utf8.ofChar

theorem utf16_injective : Function.Injective utf16 :=
  ofChars_injective

theorem sameText_iff {s t : List Char} :
    SameText (utf16 s) (utf8 t) ↔ s = t := by
  constructor
  · rintro ⟨text, first, second⟩
    rw [utf16_injective first, utf8_injective second]
  · rintro rfl
    exact ⟨s, rfl, rfl⟩

theorem utf16_eq_nil {s : List Char} : utf16 s = [] ↔ s = [] :=
  encodes_utf16.eq_nil_iff

theorem blanked_utf16 (s : List Char) : blanked (utf16 s) = utf16 (blank s) := by
  induction s with
  | nil => rfl
  | cons c s ih =>
      have first : (Java.Utf8.ofChar c).map
          (fun c => if c = char '+' then char ' ' else c) =
            Java.Utf8.ofChar (if c = '+' then ' ' else c) := by
        split_ifs with plus
        · subst plus
          decide
        · refine (List.map_congr_left fun unit mem => if_neg ?_).trans
            (List.map_id _)
          rintro rfl
          exact plus (mem_ofChar (by decide) mem)
      change (Java.Utf8.ofChar c ++ utf16 s).map _ = _
      rw [List.map_append, first]
      exact congrArg _ ih

/-- Nothing but plus signs is read as something else. -/
theorem unescape_utf16 {s : List Char} (plain : '%' ∉ s) :
    Java.Url.unescape (utf16 s) = .ok (utf16 (blank s)) := by
  have units : char '%' ∉ utf16 s :=
    not_mem_flatMap (fun _ => mem_ofChar (by decide)) plain
  have tokens (a : JavaString) (free : char '%' ∉ a) :
      Java.Url.Tokens a (blanked a) := by
    induction a with
    | nil => exact .nil
    | cons c a ih =>
        rw [List.mem_cons, not_or] at free
        exact .plain (Ne.symm free.1) (ih free.2)
  rw [← blanked_utf16]
  exact Java.Url.unescape_of_tokens (tokens _ units)

/-! ## The values of one name -/

/-- What a name has in Java, once its values have been added. -/
inductive Gathers : List JavaString → Option Term → Prop where
  | none : Gathers [] none
  | one (value : JavaString) : Gathers [value] (some (.value value))
  | more {found values : List JavaString} (many : 2 ≤ found.length)
      (listed : 2 ≤ values.length) : Gathers found (some (.list values))

theorem gathers_built (values : List JavaString) :
    Gathers values (Java.Terms.built none values) := by
  induction values using List.reverseRecOn with
  | nil => exact .none
  | append_singleton values last ih =>
      rw [Java.Terms.built_append]
      generalize Java.Terms.built none values = term at ih
      cases ih with
      | none => exact .one last
      | one value => exact .more (by simp) (by simp)
      | @more _ listed many length =>
          dsimp only [Java.Terms.added]
          split_ifs
          · exact .more (by simp; omega) length
          · exact .more (by simp; omega) (by simp; omega)

/-- One value that is listed is the one value that has been added. -/
theorem Gathers.eq_singleton {found : List JavaString} {term : Option Term}
    (gathers : Gathers found term) {value : JavaString} (mem : value ∈ found)
    (few : found.length ≤ 1 ∨ (Java.Terms.elements term).length ≤ 1) :
    found = [value] ∧ Java.Terms.elements term = [value] := by
  cases gathers with
  | none => cases mem
  | one only =>
      obtain rfl := List.mem_singleton.mp mem
      exact ⟨rfl, rfl⟩
  | more many listed =>
      rcases few with few | few
      · omega
      · have few' : _ ≤ 1 := few
        rw [Java.Terms.elements] at few'
        omega

/-! ## The table -/

/-- The table once a piece has been added or dropped. -/
def putPiece (table : UrlTable) (piece : CString × Option CString) :
    UrlTable :=
  match piece.2 with
  | none => table
  | some value => if value = [] then table else table.insert piece.1 value

theorem putTerm_eq (table : UrlTable) (s : CString) :
    EtchURL.putTerm table s = putPiece table (cut (byte '=') s) := by
  unfold EtchURL.putTerm EtchURL.termOf putPiece
  cases cut (byte '=') s with
  | mk name value =>
      cases value with
      | none => rfl
      | some value =>
          dsimp only
          split_ifs
          · rfl
          · rfl

/-- The table is made of the pieces. -/
theorem tableOf_eq (parts : Parts UInt8) :
    EtchURL.tableOf parts.terms =
      (parts.termPieces byte).foldl putPiece ∅ := by
  unfold EtchURL.tableOf Parts.termPieces
  cases parts.terms with
  | none => rfl
  | some terms =>
      dsimp only
      rw [List.foldl_map]
      generalize terms.splitOn (byte '&') = pieces
      generalize (∅ : UrlTable) = table
      induction pieces generalizing table with
      | nil => rfl
      | cons s pieces ih =>
          rw [List.foldl_cons, ih, putTerm_eq]
          by_cases empty : s = []
          · rw [List.filter_cons_of_neg (by simpa using empty), empty]
            rfl
          · rw [List.filter_cons_of_pos (by simpa using empty),
              List.foldl_cons]

variable {pieces : List (CString × Option CString)} {name value : CString}

theorem putPiece_lookup (table : UrlTable)
    (piece : CString × Option CString) :
    (putPiece table piece).lookup name = some value ↔
      (piece = (name, some value) ∧ value ≠ []) ∨
        ((piece.1 = name → piece.2.getD [] = []) ∧
          table.lookup name = some value) := by
  obtain ⟨other, found⟩ := piece
  unfold putPiece
  cases found with
  | none => simp
  | some found =>
      by_cases empty : found = []
      · simp +contextual [empty]
      · by_cases same : other = name
        · subst same
          simp only [empty, if_false, Finmap.lookup_insert]
          constructor
          · rintro ⟨⟩
            exact .inl ⟨rfl, empty⟩
          · rintro (⟨⟨⟩, -⟩ | ⟨none, -⟩)
            · rfl
            · exact absurd (none trivial) empty
        · simp only [empty, if_false,
            Finmap.lookup_insert_of_ne _ (Ne.symm same)]
          simp [same]

/-- What a name has in the table is one of its values. -/
theorem mem_of_lookup
    (found : (pieces.foldl putPiece ∅).lookup name = some value) :
    (name, some value) ∈ pieces ∧ value ≠ [] := by
  induction pieces using List.reverseRecOn with
  | nil => cases found
  | append_singleton pieces last ih =>
      rw [List.foldl_concat, putPiece_lookup] at found
      rcases found with ⟨rfl, nonempty⟩ | ⟨-, found⟩
      · exact ⟨List.mem_append_right _ List.mem_cons_self, nonempty⟩
      · exact ⟨List.mem_append_left _ (ih found).1, (ih found).2⟩

/-- A name that comes once has its value. -/
theorem lookup_of_mem (nodup : (pieces.map (·.1)).Nodup)
    (mem : (name, some value) ∈ pieces) (nonempty : value ≠ []) :
    (pieces.foldl putPiece ∅).lookup name = some value := by
  induction pieces using List.reverseRecOn with
  | nil => cases mem
  | append_singleton pieces last ih =>
      rw [List.map_append, List.nodup_append] at nodup
      obtain ⟨front, -, apart⟩ := nodup
      rw [List.foldl_concat, putPiece_lookup]
      rcases List.mem_append.mp mem with mem | mem
      · refine .inr ⟨fun same => ?_, ih front mem⟩
        exact absurd same.symm (apart name
          (List.mem_map.mpr ⟨_, mem, rfl⟩) _ (by simp))
      · exact .inl ⟨(List.mem_singleton.mp mem).symm, nonempty⟩

end Etch.Cpp
