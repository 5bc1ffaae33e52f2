/-!
# Double precision numbers in documents

* `Double` holds the bits of a binary64 number.
* `Double.ofDecimal?` rounds a decimal numeral, `Double.render` writes the fewest digits that read back.
* `Double.isIntegral` and `Double.lessThanOne` answer what a schema asks of a number.
-/

namespace LintHub

/-- A binary64 number, by its bits. -/
structure Double where
  bits : UInt64
deriving DecidableEq, Inhabited

namespace Double

def isNegative (d : Double) : Bool := d.bits.toNat / 0x8000000000000000 == 1

/-- The magnitude as `m * 2 ^ (e - 1074)` with a whole `m`, and whether the gap below it is half the gap above. -/
def decompose (d : Double) : Nat × Nat × Bool :=
  let exponent := d.bits.toNat / 0x10000000000000 % 0x800
  let fraction := d.bits.toNat % 0x10000000000000
  if exponent = 0 then (fraction, 0, false)
  else (0x10000000000000 + fraction, exponent - 1, fraction == 0 && exponent != 1)

/-! ## Reading -/

/-- Divides by a power of ten, at most the 308th in one step. -/
def scaleDown : Nat → Float → Nat → Float
  | 0, x, _ => x
  | fuel + 1, x, n =>
    if n ≤ 308 then x / Float.ofScientific 1 false n
    else if x == 0.0 then x
    else scaleDown fuel (x / Float.ofScientific 1 false 308) (n - 308)

/-- The number nearest to `significand * 10 ^ exponent`, by one rounding for the significand and one for each
scaling; none when it is too large. -/
def ofDecimal? (negative : Bool) (significand : Nat) (exponent : Int) : Option Double :=
  let f := Float.ofNat significand
  let scaled :=
    if 0 ≤ exponent then
      if exponent ≤ 308 then some (f * Float.ofScientific 1 false exponent.toNat)
      else if significand = 0 then some f else none
    else some (scaleDown (exponent.natAbs + 1) f exponent.natAbs)
  match scaled with
  | none => none
  | some x => if x.isInf then none else some ⟨(if negative then -x else x).toBits⟩

/-! ## Writing -/

/-- The places before the decimal point of `num / den`, less one; negative below one. -/
def decimalExponent (num den : Nat) : Int :=
  if den ≤ num then ((num / den).repr.length : Int) - 1
  else match (List.range 400).find? fun j => den ≤ num * Nat.pow 10 (j + 1) with
    | some j => -((j : Int) + 1)
    | none => 0

/-- Of the two neighbours of `num / den` on the grid of step `10 ^ p`, the one within `low` to `high`, or the
nearer one if both are. All bounds are over `den`; `closed` says whether they count. -/
def neighbour (num low high den : Nat) (closed : Bool) (p : Int) : Option Nat :=
  let up := Nat.pow 10 p.toNat
  let down := Nat.pow 10 (-p).toNat
  let q := num * down / (den * up)
  let inside (n : Nat) : Bool :=
    let x := n * up * den
    let lo := low * down
    let hi := high * down
    if closed then lo ≤ x && x ≤ hi else lo < x && x < hi
  let twice := 2 * (num * down) - 2 * q * (den * up)
  match inside q, inside (q + 1) with
  | true, false => some q
  | false, true => some (q + 1)
  | true, true =>
    if twice < den * up then some q
    else if twice = den * up then some (if q % 2 = 0 then q else q + 1)
    else some (q + 1)
  | false, false => none

/-- The fewest digits that read back as the number, and the power of ten of the last one. -/
def shortest (d : Double) : Nat × Int :=
  let (m, e, narrow) := d.decompose
  let num := 4 * m * Nat.pow 2 e
  let low := (if narrow then 4 * m - 1 else 4 * m - 2) * Nat.pow 2 e
  let high := (4 * m + 2) * Nat.pow 2 e
  let den := 4 * Nat.pow 2 1074
  let top := decimalExponent num den
  ((List.range 17).findSome? fun (k : Nat) =>
    let p : Int := top - k
    (neighbour num low high den (m % 2 == 0) p).map fun n => (n, p)).getD (m, 0)

def stripZeros : Nat → Nat → Int → Nat × Int
  | 0, n, p => (n, p)
  | fuel + 1, n, p => if n % 10 = 0 && n != 0 then stripZeros fuel (n / 10) (p + 1) else (n, p)

/-- The text of the number: positional from `1e-5` to below `1e16`, with at least one place after the point. -/
def render (d : Double) : String :=
  let sign := if d.isNegative then "-" else ""
  if d.decompose.1 = 0 then sign ++ "0.0"
  else
    let (n, p) := (fun x : Nat × Int => stripZeros 400 x.1 x.2) d.shortest
    let digits := n.repr
    let point : Int := digits.length + p
    let zeros (k : Nat) : String := String.ofList (List.replicate k '0')
    let body :=
      if 0 ≤ p && point ≤ 16 then digits ++ zeros p.toNat ++ ".0"
      else if 0 < point && point ≤ 16 then
        String.ofList (digits.toList.take point.toNat) ++ "." ++ String.ofList (digits.toList.drop point.toNat)
      else if -5 < point && point ≤ 0 then "0." ++ zeros (-point).toNat ++ digits
      else
        let tail := String.ofList (digits.toList.drop 1)
        String.ofList (digits.toList.take 1) ++ (if tail.isEmpty then "" else "." ++ tail) ++ "e" ++
          toString (point - 1)
    sign ++ body

/-! ## Questions of a schema -/

def isIntegral (d : Double) : Bool :=
  let (m, e, _) := d.decompose
  m * Nat.pow 2 e % Nat.pow 2 1074 == 0

def lessThanOne (d : Double) : Bool :=
  let (m, e, _) := d.decompose
  d.isNegative || m * Nat.pow 2 e < Nat.pow 2 1074

end Double

end LintHub
