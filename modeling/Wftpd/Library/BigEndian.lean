import Mathlib.Algebra.Group.Nat.Defs
import Mathlib.Data.List.Induction

/-! Numbers as big-endian bytes of a fixed width. -/

set_option autoImplicit false

namespace Wftpd.Library

/-- The low bytes of a number, the most significant first. -/
def bigEndian : Nat → Nat → List UInt8
  | 0, _ => []
  | width + 1, value => bigEndian width (value / 256) ++ [UInt8.ofNat value]

def ofBigEndian (bytes : List UInt8) : Nat := bytes.foldl (fun sum byte => sum * 256 + byte.toNat) 0

@[simp] theorem length_bigEndian (width value : Nat) : (bigEndian width value).length = width := by
  induction width generalizing value with
  | zero => rfl
  | succ width ih => simp [bigEndian, ih]

theorem ofBigEndian_concat (bytes : List UInt8) (byte : UInt8) :
    ofBigEndian (bytes ++ [byte]) = ofBigEndian bytes * 256 + byte.toNat := by
  simp [ofBigEndian]

theorem ofBigEndian_lt (bytes : List UInt8) : ofBigEndian bytes < 256 ^ bytes.length := by
  induction bytes using List.reverseRecOn with
  | nil => decide
  | append_singleton front byte ih =>
      have small := byte.toNat_lt
      rw [ofBigEndian_concat, List.length_append, List.length_singleton, Nat.pow_succ]
      omega

theorem ofBigEndian_bigEndian (width value : Nat) : ofBigEndian (bigEndian width value) = value % 256 ^ width := by
  induction width generalizing value with
  | zero => exact (Nat.mod_one value).symm
  | succ width ih =>
      have last : (UInt8.ofNat value).toNat = value % 256 := UInt8.toNat_ofNat'
      have parts := @Nat.mod_mul 256 (256 ^ width) value
      rw [bigEndian, ofBigEndian_concat, ih, last, Nat.pow_succ']
      omega

theorem bigEndian_ofBigEndian (bytes : List UInt8) : bigEndian bytes.length (ofBigEndian bytes) = bytes := by
  induction bytes using List.reverseRecOn with
  | nil => rfl
  | append_singleton front byte ih =>
      have small := byte.toNat_lt
      have above : (ofBigEndian front * 256 + byte.toNat) / 256 = ofBigEndian front := by omega
      have low : UInt8.ofNat (ofBigEndian front * 256 + byte.toNat) = byte := by
        apply UInt8.toNat.inj
        rw [UInt8.toNat_ofNat']
        omega
      rw [List.length_append, List.length_singleton, bigEndian, ofBigEndian_concat, above, ih, low]

end Wftpd.Library
