import Wftpd.Common.Config

/-! A number is read back from the digits that it is written in. -/

set_option autoImplicit false

namespace Wftpd.Common

variable {radix : Nat}

theorem digitValue_digitChar {digit : Nat} (small : digit < 16) : digitValue digit.digitChar = digit := by
  revert digit
  decide

theorem foldl_toDigits (base : 1 < radix) (small : radix ≤ 16) (n : Nat) :
    (Nat.toDigits radix n).foldl (fun sum c => sum * radix + digitValue c) 0 = n := by
  induction n using Nat.base_induction radix base with
  | single digit below =>
      rw [Nat.toDigits_of_lt_base below]
      simp [digitValue_digitChar (Nat.lt_of_lt_of_le below small)]
  | digit before last below positive ih =>
      rw [← Nat.toDigits_append_toDigits base positive below, List.foldl_append, ih,
        Nat.toDigits_of_lt_base below]
      simp [digitValue_digitChar (Nat.lt_of_lt_of_le below small), Nat.mul_comm]

theorem toDigits_injective (base : 1 < radix) (small : radix ≤ 16) : Function.Injective (Nat.toDigits radix) := by
  intro first second same
  have read := congrArg (fun digits => digits.foldl (fun sum c => sum * radix + digitValue c) 0) same
  simpa only [foldl_toDigits base small] using read

end Wftpd.Common
