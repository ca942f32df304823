import Etch.Java.IdName

/-!
# The ids of names in all bindings

Java, C#, C and Go compute the id of a type or a field from its name.  They
differ in the integers they count with and in the strings they take it from:
Go counts with an `int` of the machine and cuts it off at the end, a `char` of
C may have a sign, and a wide name of C is converted to UTF-8 first.
-/

namespace Etch.IdNames

/-! ## Names -/

/-- Letters, digits, `_` and `.`, by their codes in ASCII. -/
def IsNameChar (c : UInt8) : Prop :=
  (97 ≤ c ∧ c ≤ 122) ∨ (65 ≤ c ∧ c ≤ 90) ∨ (48 ≤ c ∧ c ≤ 57) ∨ c = 95 ∨
    c = 46

instance : DecidablePred IsNameChar :=
  fun _ => inferInstanceAs (Decidable (_ ∨ _))

/-- The length of the longest string of C#, which is shorter than in Java. -/
def MAX_LENGTH : Nat := 0x3FFFFFDF

/-- A name that every binding has a string for. -/
structure Name where
  chars : List UInt8
  isName : ∀ c ∈ chars, IsNameChar c
  ne_nil : chars ≠ []
  length_le : chars.length ≤ MAX_LENGTH

namespace Name

/-- The name as a string of Java or C#. -/
def utf16 (name : Name) : List UInt16 :=
  name.chars.map UInt8.toUInt16

/-- The name in the memory of C, and whatever is behind it. -/
def cString (name : Name) (behind : List UInt8) : List UInt8 :=
  name.chars ++ 0 :: behind

/-- The name as wide characters, and whatever is behind it. -/
def wideString (name : Name) (behind : List UInt32) : List UInt32 :=
  name.chars.map UInt8.toUInt32 ++ 0 :: behind

theorem ascii_of_isNameChar {c : UInt8} (is : IsNameChar c) :
    0 < c.toNat ∧ c.toNat < 128 := by
  unfold IsNameChar at is
  simp only [UInt8.le_iff_toNat_le, ← UInt8.toNat_inj, UInt8.reduceToNat]
    at is
  omega

theorem ascii (name : Name) {c : UInt8} (mem : c ∈ name.chars) :
    0 < c.toNat ∧ c.toNat < 128 :=
  ascii_of_isNameChar (name.isName c mem)

end Name

namespace Csharp

/-- `IdName.Hash(name)` -/
def hash (name : List UInt16) : Int32 :=
  name.foldl (fun hash c =>
    let h6 := hash <<< 6
    (h6 <<< 10) + h6 - hash + c.toUInt32.toInt32) 5381

end Csharp

namespace Go

/-- The machines that Go runs on. -/
inductive Machine where
  | bits32
  | bits64

/-- The width of an `int`. -/
def Machine.width : Machine → Nat
  | bits32 => 32
  | bits64 => 64

/-- The loop of `hash`, with an `int` of some width. -/
def hashLoop (width : Nat) (val : List UInt8) (hash : BitVec width) :
    BitVec width :=
  val.foldl (fun hash byte =>
    let c := BitVec.ofNat width byte.toNat
    let h6 := hash <<< 6
    (h6 <<< 10) + h6 - hash + c) hash

def hash (machine : Machine) (val : List UInt8) : Int32 :=
  ⟨⟨(hashLoop machine.width val 5381).setWidth 32⟩⟩

end Go

namespace C

/-- What precedes the terminator of a string in memory. -/
def strlen (memory : List UInt8) : Nat :=
  (memory.takeWhile (· ≠ 0)).length

def wcslen (memory : List UInt32) : Nat :=
  (memory.takeWhile (· ≠ 0)).length

/-- `(int) c`, where the compiler may take a `char` as signed. -/
def intOfChar (signed : Bool) (c : UInt8) : Int32 :=
  if signed then c.toInt8.toInt32 else c.toUInt32.toInt32

def compute_id_name_id (signed : Bool) (name : List UInt8) : Int32 :=
  let numchars := Int32.ofNat (strlen name)
  (name.take numchars.toInt.toNat).foldl (fun hash c =>
    let h6 := hash <<< 6
    (h6 <<< 10) + h6 - hash + intOfChar signed c) 5381

/-- What a `wchar_t` is. -/
inductive Wchar where
  | ucs2
  | ucs4

/-- `sizeof(wchar_t)` -/
def Wchar.size : Wchar → Nat
  | ucs2 => 2
  | ucs4 => 4

/-- `apr_iconv` to UTF-8, from wide characters. -/
abbrev Iconv := Wchar → List UInt32 → Option (List UInt8)

/-- `etch_encoding_transcode_wchar(out, ETCH_ENCODING_UTF8, in, pool)`, with
the memory that is allocated for `out`. -/
def etch_encoding_transcode_wchar (iconv : Iconv) (wchar : Wchar)
    (input : List UInt32) : Option (List UInt8) :=
  let charcount := wcslen input % 2 ^ 32
  let inByteCount := charcount * wchar.size % 2 ^ 32
  let apr_out_bytecount := inByteCount * 4
  match iconv wchar (input.take (inByteCount / wchar.size)) with
  | none => none
  | some converted =>
      some (converted ++
        List.replicate (apr_out_bytecount - converted.length) 0)

def compute_id_name_id_from_widename (iconv : Iconv) (signed : Bool)
    (wchar : Wchar) (name : List UInt32) : Int32 :=
  match etch_encoding_transcode_wchar iconv wchar name with
  | none => -1
  | some cbuf => compute_id_name_id signed cbuf

/-- The characters of ASCII are converted to themselves. -/
def Iconv.Ascii (iconv : Iconv) : Prop :=
  ∀ wchar input, (∀ c ∈ input, c < 128) →
    iconv wchar input = some (input.map UInt32.toUInt8)

end C

/-! ## Agreement -/

namespace C

variable (name : Name)

theorem takeWhile_chars (behind : List UInt8) :
    (name.chars ++ 0 :: behind).takeWhile (· ≠ 0) = name.chars := by
  rw [List.takeWhile_append_of_pos, List.takeWhile_cons_of_neg (by decide),
    List.append_nil]
  intro c mem
  have positive := (name.ascii mem).1
  refine decide_eq_true ?_
  rintro rfl
  exact absurd positive (by decide)

theorem strlen_cString (behind : List UInt8) :
    strlen (name.cString behind) = name.chars.length :=
  congrArg List.length (takeWhile_chars name behind)

/-- An ASCII character is the same `int` with a sign and without. -/
theorem intOfChar_ascii {c : UInt8} (ascii : c.toNat < 128)
    (signed : Bool) :
    intOfChar signed c = c.toUInt16.toUInt32.toInt32 := by
  rw [UInt8.toUInt32_toUInt16]
  unfold intOfChar
  split_ifs
  · apply Int32.toInt_inj.mp
    have same : c.toUInt32.toBitVec.toNat = c.toNat := by simp
    rw [Int8.toInt_toInt32]
    change c.toBitVec.toInt = c.toUInt32.toBitVec.toInt
    rw [BitVec.toInt_eq_toNat_bmod, BitVec.toInt_eq_toNat_bmod, same]
    change Int.bmod c.toNat _ = _
    rw [Int.bmod_eq_of_le, Int.bmod_eq_of_le] <;> omega
  · rfl

theorem compute_id_name_id_eq (signed : Bool) (behind : List UInt8) :
    compute_id_name_id signed (name.cString behind) =
      Java.IdName.hash name.utf16 := by
  have small : name.chars.length < 2 ^ 31 :=
    name.length_le.trans_lt (by decide)
  have all : (Int32.ofNat name.chars.length).toInt.toNat =
      name.chars.length := by
    rw [Int32.toInt_ofNat_of_lt small]
    rfl
  unfold compute_id_name_id
  dsimp only
  rw [strlen_cString, all, Name.cString, List.take_left, Java.IdName.hash,
    Name.utf16, List.foldl_map]
  refine List.foldl_ext _ _ _ fun hash c mem => ?_
  rw [intOfChar_ascii (name.ascii mem).2]

/-- A wide name is converted whole. -/
theorem transcode_wideString {iconv : Iconv} (converts : iconv.Ascii)
    (wchar : Wchar) (behind : List UInt32) :
    ∃ zeros, etch_encoding_transcode_wchar iconv wchar
      (name.wideString behind) = some (name.cString zeros) := by
  have length : wcslen (name.wideString behind) = name.chars.length := by
    unfold wcslen Name.wideString
    rw [List.takeWhile_append_of_pos,
      List.takeWhile_cons_of_neg (by decide), List.append_nil,
      List.length_map]
    intro c mem
    obtain ⟨c', mem', rfl⟩ := List.mem_map.mp mem
    have positive := (name.ascii mem').1
    refine decide_eq_true fun zero => ?_
    have same := congrArg UInt32.toNat zero
    rw [UInt8.toNat_toUInt32] at same
    exact absurd same (Nat.ne_of_gt positive)
  have few := name.length_le
  have many : 0 < name.chars.length :=
    List.length_pos_of_ne_nil name.ne_nil
  have size : name.chars.length * wchar.size < 2 ^ 32 := by
    cases wchar <;> simp only [Wchar.size, MAX_LENGTH] at few ⊢ <;> omega
  have fits : name.chars.length < 2 ^ 32 :=
    few.trans_lt (by decide)
  have positive : 0 < wchar.size := by cases wchar <;> decide
  have whole : (name.wideString behind).take name.chars.length =
      name.chars.map UInt8.toUInt32 := by
    rw [Name.wideString, List.take_left']
    exact List.length_map _
  have converted : iconv wchar (name.chars.map UInt8.toUInt32) =
      some name.chars := by
    rw [converts wchar _ fun c mem => ?_, List.map_map]
    · exact congrArg some ((List.map_congr_left fun c _ => by simp).trans
        (List.map_id _))
    · obtain ⟨c', mem', rfl⟩ := List.mem_map.mp mem
      refine UInt32.lt_iff_toNat_lt.mpr ?_
      rw [UInt8.toNat_toUInt32]
      exact (name.ascii mem').2
  unfold etch_encoding_transcode_wchar
  dsimp only
  rw [length, Nat.mod_eq_of_lt fits, Nat.mod_eq_of_lt size,
    Nat.mul_div_cancel _ positive, whole, converted]
  dsimp only
  obtain ⟨more, room⟩ : ∃ more,
      name.chars.length * wchar.size * 4 - name.chars.length = more + 1 := by
    refine Nat.exists_eq_add_one.mpr (Nat.sub_pos_of_lt ?_)
    have larger := Nat.le_mul_of_pos_right name.chars.length positive
    omega
  exact ⟨List.replicate more 0, by rw [room]; rfl⟩

end C

namespace Go

/-- Cutting off at the end is the same as at each step. -/
theorem setWidth_hashLoop {width : Nat} (wide : 32 ≤ width)
    (val : List UInt8) (hash : BitVec width) :
    (hashLoop width val hash).setWidth 32 =
      hashLoop 32 val (hash.setWidth 32) := by
  induction val generalizing hash with
  | nil => rfl
  | cons c val ih =>
      change (hashLoop width val _).setWidth 32 = hashLoop 32 val _
      rw [ih]
      refine congrArg (hashLoop 32 val) ?_
      simp only [BitVec.sub_eq_add_neg, BitVec.setWidth_add _ _ wide,
        BitVec.setWidth_neg_of_le wide, BitVec.setWidth_shiftLeft_of_le wide,
        BitVec.setWidth_ofNat_of_le wide]

/-- An `int` of 32 bits is what the other bindings count with. -/
theorem hashLoop_toBitVec (val : List UInt8) (hash : Int32) :
    (⟨⟨hashLoop 32 val hash.toBitVec⟩⟩ : Int32) =
      val.foldl (fun (hash : Int32) c =>
        let h6 := hash <<< 6
        (h6 <<< 10) + h6 - hash + c.toUInt16.toUInt32.toInt32) hash := by
  induction val generalizing hash with
  | nil => rfl
  | cons c val ih =>
      rw [List.foldl_cons, ← ih]
      have digit : c.toUInt16.toUInt32.toInt32.toBitVec =
          BitVec.ofNat 32 c.toNat := by
        apply BitVec.eq_of_toNat_eq
        simp
      have shifted (hash : Int32) :
          (hash <<< 6).toBitVec = hash.toBitVec <<< 6 ∧
            (hash <<< 10).toBitVec = hash.toBitVec <<< 10 :=
        ⟨Int32.toBitVec_shiftLeft .., Int32.toBitVec_shiftLeft ..⟩
      refine congrArg (fun hash => (⟨⟨hashLoop 32 val hash⟩⟩ : Int32)) ?_
      rw [Int32.toBitVec_add, Int32.toBitVec_sub, Int32.toBitVec_add,
        (shifted _).2, (shifted _).1, digit]

theorem hash_eq (machine : Machine) (name : Name) :
    hash machine name.chars = Java.IdName.hash name.utf16 := by
  have wide : 32 ≤ machine.width := by cases machine <;> decide
  unfold hash
  have start : (5381 : BitVec machine.width).setWidth 32 =
      (5381 : Int32).toBitVec := by
    cases machine <;> rfl
  rw [setWidth_hashLoop wide, start, hashLoop_toBitVec, Java.IdName.hash,
    Name.utf16, List.foldl_map]

end Go

/-- A name has one id in all bindings. -/
theorem ids_agree (name : Name) {iconv : C.Iconv} (converts : iconv.Ascii)
    (signed : Bool) (wchar : C.Wchar) (machine : Go.Machine)
    (behind : List UInt8) (behind' : List UInt32) :
    Csharp.hash name.utf16 = Java.IdName.hash name.utf16 ∧
      C.compute_id_name_id signed (name.cString behind) =
        Java.IdName.hash name.utf16 ∧
      C.compute_id_name_id_from_widename iconv signed wchar
          (name.wideString behind') = Java.IdName.hash name.utf16 ∧
      Go.hash machine name.chars = Java.IdName.hash name.utf16 := by
  obtain ⟨zeros, converted⟩ :=
    C.transcode_wideString name converts wchar behind'
  refine ⟨rfl, C.compute_id_name_id_eq name signed behind, ?_,
    Go.hash_eq machine name⟩
  rw [C.compute_id_name_id_from_widename, converted]
  exact C.compute_id_name_id_eq name signed zeros

/-- The name `msg`, converted character by character. -/
theorem ids_agree_msg :
    ∃ name : Name, name.chars = [109, 115, 103] ∧
      C.compute_id_name_id_from_widename
          (fun _ input => some (input.map UInt32.toUInt8)) true .ucs4
          (name.wideString []) = Java.IdName.hash name.utf16 := by
  have converts : C.Iconv.Ascii
      fun _ input => some (input.map UInt32.toUInt8) :=
    fun _ _ _ => rfl
  let name : Name :=
    ⟨[109, 115, 103], by decide +kernel, by simp, by decide +kernel⟩
  obtain ⟨_, _, widename, _⟩ :=
    ids_agree name converts true .ucs4 .bits64 [] []
  exact ⟨name, rfl, widename⟩

end Etch.IdNames
