import LintHub.Text.Digit

/-!
# Numerals

* `ofDigits` is the value of a run of ASCII digits.
* `clampWord` sends a natural number into 32 bits, large numbers to the largest one.
* `position` reads the numeral of a line or a column.
* `hexDigit` is a digit of base sixteen.
-/

namespace LintHub.Text

/-- The value of ASCII digits, most significant first. -/
def ofDigits (digits : List Char) : Nat := digits.foldl (fun n c => 10 * n + (c.toNat - 48)) 0

def maxWord : UInt32 := 0xFFFFFFFF

/-- The number itself, or the largest of 32 bits where it does not fit. -/
def clampWord (n : Nat) : UInt32 := if n < 0x100000000 then UInt32.ofNat n else maxWord

/-- The line or column that a run of digits names. Digits of other scripts than ASCII name no number and stand
for the largest one. -/
def position (digits : List Char) : UInt32 :=
  if digits.all isAsciiDigit then clampWord (ofDigits digits) else maxWord

def hexDigit (n : Nat) : Char := if n < 10 then Char.ofNat (48 + n) else Char.ofNat (87 + n)

end LintHub.Text
