import ScriptTypings.Number.Rounding

/-!
# Double-precision numbers

A finite number is a mantissa below `2 ^ 53` times a power of two. `ofRatio` rounds a fraction to
the nearest such number, a tie to the even mantissa, and to an infinity beyond the greatest one.
-/

namespace ScriptTypings.Number

inductive Binary64
  | finite (negative : Bool) (mantissa : Nat) (exponent : Int)
  | infinite (negative : Bool)
  | notANumber
  deriving DecidableEq, Repr

namespace Binary64

/-- The least exponent of a mantissa. -/
def leastExponent : Int := -1074

/-- The greatest exponent of a mantissa. -/
def greatestExponent : Int := 971

/-- Numerator and denominator of `num / den` divided by `2 ^ exponent`. -/
def scaleDown (num den : Nat) (exponent : Int) : Nat × Nat :=
  let factor := powerOfTwo exponent.natAbs
  if exponent < 0 then (num * factor, den) else (num, den * factor)

/-- The exponent at which the quotient of two positive numbers has 53 binary digits, or the least
exponent. -/
def exponentOf (num den : Nat) : Int :=
  let guess := max leastExponent ((num.log2 : Int) - den.log2 - 53)
  let s := scaleDown num den guess
  if powerOfTwo 53 ≤ s.1 / s.2 then guess + 1 else guess

/-- The number nearest to a fraction with a positive denominator. -/
def ofRatio (negative : Bool) (num den : Nat) : Binary64 :=
  if num = 0 then finite negative 0 leastExponent
  else
    let e := exponentOf num den
    let s := scaleDown num den e
    let m := roundDiv s.1 s.2
    let (m, e) := if m = powerOfTwo 53 then (powerOfTwo 52, e + 1) else (m, e)
    if greatestExponent < e then infinite negative else finite negative m e

/-- The number nearest to `digits * 10 ^ power`. Powers far outside the range of all numbers are
answered without computing them. -/
def ofDecimal (negative : Bool) (digits : Nat) (power : Int) : Binary64 :=
  let size := (digitCount digits : Int) + power
  if digits = 0 then finite negative 0 leastExponent
  else if 400 < size then infinite negative
  else if size < -400 then finite negative 0 leastExponent
  else if power < 0 then ofRatio negative digits (powerOfTen power.natAbs)
  else ofRatio negative (digits * powerOfTen power.natAbs) 1

/-- A mantissa and exponent as a fraction. -/
def ratio (mantissa : Nat) (exponent : Int) : Nat × Nat :=
  let factor := powerOfTwo exponent.natAbs
  if exponent < 0 then (mantissa, factor) else (mantissa * factor, 1)

/-- The product with a natural number, rounded once. -/
def timesNat (x : Binary64) (k : Nat) : Binary64 :=
  match x with
  | finite negative m e =>
    let r := ratio m e
    ofRatio negative (r.1 * k) r.2
  | other => other

def isZero : Binary64 → Bool
  | finite _ m _ => m = 0
  | _ => false

end Binary64

end ScriptTypings.Number
