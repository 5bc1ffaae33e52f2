import LintHub.Text.Numeral

/-!
# Numerals are read back

* `IsNumeral` : a run of digits, which may be those of any script.
* `ofDigits_toDigits` : the digits of a number are read as the number.
* `position_of_ascii` : a line or a column in ASCII digits is their value, within 32 bits.
-/

namespace LintHub.Text

theorem isAsciiDigit_of_mem_toDigits {n : Nat} {c : Char} (h : c ∈ Nat.toDigits 10 n) : isAsciiDigit c = true := by
  have := Nat.isDigit_of_mem_toDigits (by omega) (by omega) h
  simpa [isAsciiDigit, Char.isDigit, UInt32.le_iff_toNat_le] using this

theorem isDigit_of_mem_toDigits {n : Nat} {c : Char} (h : c ∈ Nat.toDigits 10 n) : isDigit c = true :=
  isDigit_of_isAsciiDigit (isAsciiDigit_of_mem_toDigits h)

/-- A run of digits of any scripts. -/
structure IsNumeral (digits : List Char) : Prop where
  ne : digits ≠ []
  digits : ∀ c ∈ digits, isDigit c = true

theorem isNumeral_toDigits (n : Nat) : IsNumeral (Nat.toDigits 10 n) :=
  ⟨Nat.toDigits_ne_nil, fun _ hc => isDigit_of_mem_toDigits hc⟩

theorem ofDigits_toDigits (n : Nat) : ofDigits (Nat.toDigits 10 n) = n := by
  induction n using Nat.strongRecOn with
  | ind n ih =>
    rw [Nat.toDigits_eq_if (by omega)]
    split
    · next h => simp [ofDigits, Nat.toNat_digitChar_sub_48_of_lt_ten h]
    · have hstep := ih (n / 10) (by omega)
      rw [ofDigits] at hstep ⊢
      rw [List.foldl_append, hstep, List.foldl_cons, List.foldl_nil,
        Nat.toNat_digitChar_sub_48_of_lt_ten (by omega)]
      omega

theorem position_of_ascii {digits : List Char} (h : ∀ c ∈ digits, isAsciiDigit c = true) :
    position digits = clampWord (ofDigits digits) :=
  if_pos (List.all_eq_true.2 h)

theorem toNat_clampWord (n : Nat) : (clampWord n).toNat = min n 0xFFFFFFFF := by
  rw [clampWord]
  split
  · rw [UInt32.toNat_ofNat_of_lt' (by simpa using ‹_›)]
    omega
  · rw [show maxWord.toNat = 0xFFFFFFFF from rfl]
    omega

end LintHub.Text
