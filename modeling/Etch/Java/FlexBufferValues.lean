import Etch.Java.FlexBuffer

/-!
# The numbers that a Java `FlexBuffer` reads and writes

Numbers are big-endian and of any size.  Whatever is put at the end of a
buffer is appended to its contents, and whatever is got is taken from the front
of what is unread.
-/

namespace Etch.Java.FlexBuffer

open Etch.Library.BigEndian Etch.Library.Fallible Etch.Library.Window

/-- `getFully(b)`, for an array `b` of this length. -/
def getFully (buf : FlexBuffer) (length : Nat) :
    Except Exception (List UInt8 × FlexBuffer) := do
  buf.checkAvail length
  let next ← buf.skip length
  .ok (buf.unread.take length, next)

/-- The number in so many bytes, the first of which has the sign. -/
def getNumber (buf : FlexBuffer) (size : Nat) :
    Except Exception (Int × FlexBuffer) := do
  let (bytes, next) ← buf.getFully size
  .ok (Int.bmod (ofBytes bytes) (256 ^ size), next)

def getByte (buf : FlexBuffer) : Except Exception (Int × FlexBuffer) :=
  buf.getNumber 1

def getShort (buf : FlexBuffer) : Except Exception (Int × FlexBuffer) :=
  buf.getNumber 2

def getLong (buf : FlexBuffer) : Except Exception (Int × FlexBuffer) :=
  buf.getNumber 8

/-- The bytes of a number, of which those that do not fit are dropped. -/
def numberBytes (size : Nat) (value : Int) : List UInt8 :=
  toBytes size (value % 256 ^ size).toNat

def putNumber (buf : FlexBuffer) (size : Nat) (value : Int) :
    Except Exception FlexBuffer :=
  buf.putBytes (numberBytes size value)

def putByte (buf : FlexBuffer) (value : Int) : Except Exception FlexBuffer :=
  buf.putNumber 1 value

def putShort (buf : FlexBuffer) (value : Int) :
    Except Exception FlexBuffer :=
  buf.putNumber 2 value

def putLong (buf : FlexBuffer) (value : Int) : Except Exception FlexBuffer :=
  buf.putNumber 8 value

/-! ## Reading -/

theorem getFully_ok {buf : FlexBuffer} {length : Nat}
    (enough : length ≤ buf.avail) :
    ∃ next, buf.getFully length = .ok (buf.unread.take length, next) ∧
      next.unread = buf.unread.drop length := by
  obtain ⟨next, skipped, rest⟩ := skip_ok enough
  refine ⟨next, ?_, rest⟩
  rw [getFully, checkAvail, if_neg (Nat.not_lt.mpr enough), skipped]
  rfl

theorem getFully_error {buf : FlexBuffer} {length : Nat}
    (short : buf.avail < length) :
    buf.getFully length = .error (.eofException "len > avail()") := by
  rw [getFully, checkAvail, if_pos short]
  rfl

theorem getFully_append {buf : FlexBuffer} {bytes rest : List UInt8}
    (unread : buf.unread = bytes ++ rest) :
    ∃ next, buf.getFully bytes.length = .ok (bytes, next) ∧
      next.unread = rest := by
  have enough : bytes.length ≤ buf.avail := by
    rw [← buf.length_unread, unread, List.length_append]
    exact Nat.le_add_right _ _
  obtain ⟨next, got, left⟩ := getFully_ok enough
  rw [unread, List.take_left] at got
  rw [unread, List.drop_left] at left
  exact ⟨next, got, left⟩

theorem getNumber_eq_ok_iff {buf next : FlexBuffer} {size : Nat}
    {value : Int} :
    buf.getNumber size = .ok (value, next) ↔
      ∃ bytes, buf.getFully size = .ok (bytes, next) ∧
        value = Int.bmod (ofBytes bytes) (256 ^ size) := by
  unfold getNumber
  rw [bind_eq_ok_iff]
  constructor
  · rintro ⟨⟨bytes, next'⟩, got, returned⟩
    obtain ⟨rfl, rfl⟩ := Prod.mk.inj (Except.ok.inj returned)
    exact ⟨bytes, got, rfl⟩
  · rintro ⟨bytes, got, rfl⟩
    exact ⟨(bytes, next), got, rfl⟩

/-- `getInt` is one of them. -/
theorem getInt_eq (buf : FlexBuffer) : buf.getInt = buf.getNumber 4 := by
  by_cases enough : 4 ≤ buf.avail
  · obtain ⟨next, got, rest⟩ := getInt_ok buf enough
    obtain ⟨next', got', rest'⟩ := getFully_ok enough
    have same : next = next' := by
      have skipped : buf.skip (4 : Nat) = .ok next := by
        obtain ⟨_, _, middle⟩ := bind_eq_ok_iff.mp got
        obtain ⟨after, skipped, returned⟩ := bind_eq_ok_iff.mp middle
        obtain ⟨_, rfl⟩ := Prod.mk.inj (Except.ok.inj returned)
        exact skipped
      obtain ⟨_, _, middle⟩ := bind_eq_ok_iff.mp got'
      obtain ⟨after, skipped', returned⟩ := bind_eq_ok_iff.mp middle
      obtain ⟨_, rfl⟩ := Prod.mk.inj (Except.ok.inj returned)
      exact Except.ok.inj (skipped.symm.trans skipped')
    subst same
    rw [got]
    refine (getNumber_eq_ok_iff.mpr ⟨_, got', ?_⟩).symm
    have small : ofBytes (buf.unread.take 4) < 2 ^ 32 := by
      have bound := ofBytes_lt (buf.unread.take 4)
      rw [List.length_take, buf.length_unread,
        Nat.min_eq_left enough] at bound
      exact bound
    simp only [Packet.signed32, Int.bmod]
    split <;> split <;> omega
  · have short := Nat.lt_of_not_le enough
    rw [getNumber, getFully_error short, getInt, checkAvail, if_pos short]
    rfl

/-- Any number of the size is read back. -/
theorem bmod_numberBytes {size : Nat} {value : Int}
    (lower : -256 ^ size ≤ 2 * value) (upper : 2 * value < 256 ^ size) :
    Int.bmod (ofBytes (numberBytes size value)) (256 ^ size) = value := by
  have positive : (0 : Int) < 256 ^ size := Int.pow_pos (by decide)
  have digits : (0 : Int) ≤ value % 256 ^ size :=
    Int.emod_nonneg _ (Int.ne_of_gt positive)
  have cast : ((256 ^ size : Nat) : Int) = 256 ^ size := by
    push_cast
    rfl
  have fits : (value % 256 ^ size).toNat < 256 ^ size := by
    have := Int.emod_lt_of_pos value positive
    omega
  rw [numberBytes, ofBytes_toBytes_of_lt fits, Int.toNat_of_nonneg digits,
    ← cast, Int.emod_bmod, Int.bmod_eq_of_le_mul_two] <;> omega

@[simp]
theorem length_numberBytes (size : Nat) (value : Int) :
    (numberBytes size value).length = size :=
  length_toBytes _ _

/-- The byte of a signed one. -/
theorem numberBytes_one (value : Int8) :
    numberBytes 1 value.toInt = [value.toUInt8] := by
  have digit : (value.toInt % 256 ^ 1).toNat = value.toUInt8.toNat := by
    change (value.toBitVec.toInt % 256 ^ 1).toNat = value.toBitVec.toNat
    rw [BitVec.toInt_eq_toNat_bmod]
    have same := Int.bmod_emod (x := (value.toBitVec.toNat : Int))
      (m := 2 ^ 8)
    have small := value.toBitVec.isLt
    norm_num at same ⊢
    omega
  unfold numberBytes
  rw [digit]
  simp [toBytes]

/-! ## Writing -/

/-- Bytes that are put at the end are appended. -/
theorem putBytes_appends {buf next : FlexBuffer} {bytes : List UInt8}
    (atEnd : buf.index = buf.length) (put : buf.putBytes bytes = .ok next) :
    next.index = next.length ∧ next.contents = buf.contents ++ bytes := by
  obtain ⟨⟨grown, large⟩, ensured, stored⟩ := bind_eq_ok_iff.mp put
  dsimp only at stored
  split at stored
  · rename_i room
    obtain rfl := Except.ok.inj stored
    have same : grown.index = buf.index ∧ grown.length = buf.length ∧
        grown.contents = buf.contents := by
      unfold ensureLength at ensured
      split at ensured
      · obtain rfl := congrArg Subtype.val (Except.ok.inj ensured)
        exact ⟨rfl, rfl, rfl⟩
      · dsimp only at ensured
        split at ensured
        · cases ensured
        · obtain rfl := congrArg Subtype.val (Except.ok.inj ensured)
          refine ⟨rfl, rfl, ?_⟩
          simp only [contents]
          rw [List.take_append_of_le_length buf.length_le]
    obtain ⟨index, length, contents⟩ := same
    have whole : max grown.length (grown.index + bytes.length) =
        grown.index + bytes.length := by
      omega
    refine ⟨whole.symm, ?_⟩
    have front : grown.buffer.take buf.length = buf.contents := by
      rw [← length]
      exact contents
    simp only [FlexBuffer.contents, whole]
    rw [← window_zero, ← window_append_window _ (Nat.zero_le grown.index)
        (Nat.le_add_right _ _),
      window_overwrite_self (by omega),
      window_overwrite_before (by omega) 0 (Nat.le_refl _), window_zero,
      index, atEnd, front]
    rfl
  · cases stored

theorem putArray_appends {buf next : FlexBuffer} {source : List UInt8}
    {len : Nat} (atEnd : buf.index = buf.length)
    (put : buf.putArray source 0 len = .ok next) :
    next.index = next.length ∧
      next.contents = buf.contents ++ source.take len := by
  obtain ⟨_, _, rest⟩ := bind_eq_ok_iff.mp put
  split_ifs at rest with none long
  · obtain rfl := Except.ok.inj rest
    obtain rfl : len = 0 := by exact_mod_cast none
    exact ⟨atEnd, (List.append_nil _).symm⟩
  · have appended := putBytes_appends atEnd rest
    rw [window_eq_take] at appended
    simpa using appended

end Etch.Java.FlexBuffer
