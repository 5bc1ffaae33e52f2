/-!
# Text from bytes

* `decode?` reads well-formed UTF-8.
* `decodeLossy` reads any bytes: each longest start of a character that breaks off becomes one U+FFFD.
-/

namespace LintHub.Text

/-- The string whose UTF-8 form the bytes are. -/
def decode? (bytes : ByteArray) : Option String := String.fromUTF8? bytes

/-- The bytes that may follow the first byte of a character: the range of the second one and how many there are. -/
def continuation (lead : UInt8) : Option (Nat × Nat × Nat) :=
  let b := lead.toNat
  if 0xC2 ≤ b && b ≤ 0xDF then some (0x80, 0xBF, 1)
  else if b = 0xE0 then some (0xA0, 0xBF, 2)
  else if b = 0xED then some (0x80, 0x9F, 2)
  else if 0xE1 ≤ b && b ≤ 0xEF then some (0x80, 0xBF, 2)
  else if b = 0xF0 then some (0x90, 0xBF, 3)
  else if 0xF1 ≤ b && b ≤ 0xF3 then some (0x80, 0xBF, 3)
  else if b = 0xF4 then some (0x80, 0x8F, 3)
  else none

def replacement : Char := '\uFFFD'

/-- Reads the remaining `more` bytes of a character of which `value` is known; a byte outside `low` to `high`
ends it. -/
def decodeTail (value low high : Nat) : Nat → List UInt8 → Char × List UInt8
  | 0, rest => (Char.ofNat value, rest)
  | _ + 1, [] => (replacement, [])
  | more + 1, b :: rest =>
    if low ≤ b.toNat && b.toNat ≤ high then decodeTail (value * 64 + b.toNat % 64) 0x80 0xBF more rest
    else (replacement, b :: rest)

theorem decodeTail_length (value low high more : Nat) (bytes : List UInt8) :
    (decodeTail value low high more bytes).2.length ≤ bytes.length := by
  induction bytes generalizing value low high more with
  | nil => cases more <;> simp [decodeTail]
  | cons b rest ih =>
    cases more with
    | zero => simp [decodeTail]
    | succ more =>
      simp only [decodeTail]
      split
      · exact Nat.le_succ_of_le (ih ..)
      · exact Nat.le_refl _

def decodeChar (lead : UInt8) (rest : List UInt8) : Char × List UInt8 :=
  if lead.toNat < 0x80 then (Char.ofNat lead.toNat, rest)
  else match continuation lead with
    | none => (replacement, rest)
    | some (low, high, more) =>
      decodeTail (if more = 1 then lead.toNat % 32 else if more = 2 then lead.toNat % 16 else lead.toNat % 8)
        low high more rest

theorem decodeChar_length (lead : UInt8) (rest : List UInt8) :
    (decodeChar lead rest).2.length ≤ rest.length := by
  unfold decodeChar
  split
  · exact Nat.le_refl _
  · split
    · exact Nat.le_refl _
    · exact decodeTail_length ..

def decodeChars : List UInt8 → List Char
  | [] => []
  | lead :: rest => (decodeChar lead rest).1 :: decodeChars (decodeChar lead rest).2
termination_by bytes => bytes.length
decreasing_by
  have := decodeChar_length lead rest
  simp only [List.length_cons]
  omega

/-- The text of the bytes, with U+FFFD for what is not well-formed UTF-8. -/
def decodeLossy (bytes : ByteArray) : String :=
  match decode? bytes with
  | some s => s
  | none => String.ofList (decodeChars bytes.toList)

end LintHub.Text
