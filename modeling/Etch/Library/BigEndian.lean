import Mathlib.Tactic.Ring

/-!
# Big-endian byte strings

Fixed-width unsigned integers as lists of bytes, most significant byte first.
`ofBytes` and `toBytes` are inverse on strings of the given width; a value that
does not fit is written modulo `256 ^ width`, as a machine store would do.
-/

namespace Etch.Library.BigEndian

/-- The number written by a byte string, most significant byte first. -/
def ofBytes : List UInt8 → Nat
  | [] => 0
  | byte :: rest => byte.toNat * 256 ^ rest.length + ofBytes rest

/-- The last `width` base-256 digits of `value`, most significant first. -/
def toBytes : Nat → Nat → List UInt8
  | 0, _ => []
  | width + 1, value =>
      UInt8.ofNat (value / 256 ^ width) :: toBytes width value

@[simp]
theorem length_toBytes (width value : Nat) :
    (toBytes width value).length = width := by
  induction width with
  | zero => rfl
  | succ width ih => simp [toBytes, ih]

theorem ofBytes_lt (bytes : List UInt8) :
    ofBytes bytes < 256 ^ bytes.length := by
  induction bytes with
  | nil => simp [ofBytes]
  | cons byte rest ih =>
      have small : byte.toNat ≤ 255 := by
        have := byte.toNat_lt
        omega
      have head : byte.toNat * 256 ^ rest.length ≤
          255 * 256 ^ rest.length :=
        Nat.mul_le_mul_right _ small
      simp only [ofBytes, List.length_cons, Nat.pow_succ]
      omega

/-- Reading a written number gives it back, up to the width it was given. -/
theorem ofBytes_toBytes (width value : Nat) :
    ofBytes (toBytes width value) = value % 256 ^ width := by
  induction width with
  | zero => simp [toBytes, ofBytes, Nat.mod_one]
  | succ width ih =>
      have digit : (UInt8.ofNat (value / 256 ^ width)).toNat =
          value / 256 ^ width % 256 := by
        simp
      rw [toBytes, ofBytes, length_toBytes, ih, digit, Nat.pow_succ,
        Nat.mod_mul, Nat.add_comm, Nat.mul_comm]

theorem ofBytes_toBytes_of_lt {width value : Nat}
    (fits : value < 256 ^ width) :
    ofBytes (toBytes width value) = value := by
  rw [ofBytes_toBytes, Nat.mod_eq_of_lt fits]

theorem toBytes_add_mul (width value multiple : Nat) :
    toBytes width (multiple * 256 ^ width + value) =
      toBytes width value := by
  induction width generalizing multiple with
  | zero => rfl
  | succ width ih =>
      have shift : multiple * 256 ^ (width + 1) + value =
          (multiple * 256) * 256 ^ width + value := by
        ring
      have digit : UInt8.ofNat
            ((multiple * 256 * 256 ^ width + value) / 256 ^ width) =
          UInt8.ofNat (value / 256 ^ width) := by
        rw [Nat.add_comm, Nat.add_mul_div_right _ _ (Nat.pow_pos (by decide))]
        apply UInt8.toNat_inj.mp
        simp
      rw [toBytes, toBytes, shift, ih, digit]

end Etch.Library.BigEndian
