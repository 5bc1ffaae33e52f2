import LintHub.Text.Units
import Mathlib.Data.List.Basic

/-!
# UTF-16

* `codeUnits` : the code units of a text. A character above the basic plane is a pair of surrogates.
* `length_codeUnits` : `unitLength` counts them.
* `not_isTrailing_head` : a text does not start inside a pair.
* `ne_of_mem_unitsOf` : the code unit of a character of the basic plane stands in no other character.
-/

namespace LintHub.Text

/-- The code units of a character. -/
def unitsOf (c : Char) : List UInt16 :=
  if c.toNat < 0x10000 then [UInt16.ofNat c.toNat]
  else [UInt16.ofNat (0xD800 + (c.toNat - 0x10000) / 0x400), UInt16.ofNat (0xDC00 + (c.toNat - 0x10000) % 0x400)]

/-- The code units of a text. -/
def codeUnits (s : List Char) : List UInt16 := s.flatMap unitsOf

/-- The second code unit of a pair. -/
def IsTrailing (u : UInt16) : Prop := 0xDC00 ≤ u.toNat ∧ u.toNat < 0xE000

variable {c d : Char} {u : UInt16} {s : List Char}

/-! ## Characters -/

theorem toNat_cases (c : Char) : c.toNat < 0xD800 ∨ (0xDFFF < c.toNat ∧ c.toNat < 0x110000) := c.valid

theorem length_unitsOf (c : Char) : (unitsOf c).length = unitWidth c := by
  unfold unitsOf unitWidth
  split <;> rfl

theorem toNat_unitOf_of_lt (h : c.toNat < 0x10000) : (UInt16.ofNat c.toNat).toNat = c.toNat := by
  rw [UInt16.toNat_ofNat']
  exact Nat.mod_eq_of_lt h

/-- The first code unit of a character is one of the basic plane or the leading one of a pair. -/
theorem not_isTrailing_of_head (h : (unitsOf c).head? = some u) : ¬ IsTrailing u := by
  have hc := toNat_cases c
  unfold IsTrailing
  unfold unitsOf at h
  split at h
  · next hlow =>
    obtain rfl := Option.some.inj h
    rw [toNat_unitOf_of_lt hlow]
    omega
  · obtain rfl := Option.some.inj h
    rw [UInt16.toNat_ofNat']
    omega

theorem ne_of_mem_unitsOf (hd : d.toNat < 0xD800) (hne : c ≠ d) (h : u ∈ unitsOf c) : u ≠ UInt16.ofNat d.toNat := by
  rintro rfl
  have hc := toNat_cases c
  have hunit : (UInt16.ofNat d.toNat).toNat = d.toNat := toNat_unitOf_of_lt (by omega)
  unfold unitsOf at h
  split at h
  · next hlow =>
    have hsame := congrArg UInt16.toNat (List.mem_singleton.1 h)
    rw [hunit, toNat_unitOf_of_lt hlow] at hsame
    exact hne (Char.toNat_inj.1 hsame.symm)
  · rw [List.mem_pair] at h
    rcases h with h | h
    · have hsame := congrArg UInt16.toNat h
      rw [hunit, UInt16.toNat_ofNat'] at hsame
      omega
    · have hsame := congrArg UInt16.toNat h
      rw [hunit, UInt16.toNat_ofNat'] at hsame
      omega

/-! ## Texts -/

theorem codeUnits_cons (c : Char) (s : List Char) : codeUnits (c :: s) = unitsOf c ++ codeUnits s := List.flatMap_cons

theorem codeUnits_append (a b : List Char) : codeUnits (a ++ b) = codeUnits a ++ codeUnits b := List.flatMap_append

theorem length_codeUnits (s : List Char) : (codeUnits s).length = unitLength s := by
  induction s with
  | nil => rfl
  | cons c s ih => rw [codeUnits_cons, List.length_append, ih, length_unitsOf, unitLength]

/-- The code units before a place between two characters are those of the characters before it. -/
theorem take_codeUnits (a b : List Char) : (codeUnits (a ++ b)).take (unitLength a) = codeUnits a := by
  rw [codeUnits_append, ← length_codeUnits, List.take_left]

theorem drop_codeUnits (a b : List Char) : (codeUnits (a ++ b)).drop (unitLength a) = codeUnits b := by
  rw [codeUnits_append, ← length_codeUnits, List.drop_left]

theorem not_isTrailing_head (h : (codeUnits s).head? = some u) : ¬ IsTrailing u := by
  cases s with
  | nil => cases h
  | cons c s =>
    have hne : unitsOf c ≠ [] := by
      intro hnil
      have hlength := length_unitsOf c
      rw [hnil] at hlength
      unfold unitWidth at hlength
      split at hlength <;> cases hlength
    rw [codeUnits_cons, List.head?_append_of_ne_nil _ hne] at h
    exact not_isTrailing_of_head h

end LintHub.Text
