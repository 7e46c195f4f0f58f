import ScriptTypings.Number.Binary64

/-!
# Shortest decimal text

`shortest` finds the fewest decimal digits that lie in the interval of reals rounding to a given
number, and of those the nearest to it. `Binary64.text` writes them: positionally from `10 ^ -4`
up to `10 ^ 16`, with a fraction of at least one digit, and with an exponent of at least two digits
elsewhere.
-/

namespace ScriptTypings.Number

/-- Whether the first fraction is below the second, or equal to it where that is allowed. -/
def fractionBelow (orEqual : Bool) (a b : Nat × Nat) : Bool :=
  if orEqual then a.1 * b.2 ≤ b.1 * a.2 else a.1 * b.2 < b.1 * a.2

/-- The ends of the interval of reals that round to `mantissa * 2 ^ exponent`. -/
def roundingInterval (mantissa : Nat) (exponent : Int) : (Nat × Nat) × (Nat × Nat) :=
  let quarter := fun (n : Nat) => Binary64.ratio n (exponent - 2)
  -- below a power of two the neighbours are half as far apart
  let below :=
    if mantissa = powerOfTwo 52 && Binary64.leastExponent < exponent then 4 * mantissa - 1
    else 4 * mantissa - 2
  (quarter below, quarter (4 * mantissa + 2))

/-- The power of ten just below a positive fraction, or equal to it. -/
def tenPower (num den : Nat) : Int :=
  if den ≤ num then (digitCount (num / den) : Int) - 1
  else
    let j := digitCount (den / num) - 1
    if num * powerOfTen j = den then -(j : Int) else -((j : Int) + 1)

/-- A count of units `10 ^ power` as a fraction. -/
def decimalRatio (count : Nat) (power : Int) : Nat × Nat :=
  if power < 0 then (count, powerOfTen power.natAbs) else (count * powerOfTen power.natAbs, 1)

/-- The whole number of units `10 ^ power` in a fraction, and twice the remainder compared with
one unit. -/
def unitsBelow (num den : Nat) (power : Int) : Nat × Ordering :=
  let s : Nat × Nat :=
    if power < 0 then (num * powerOfTen power.natAbs, den) else (num, den * powerOfTen power.natAbs)
  (s.1 / s.2, compare (2 * (s.1 % s.2)) s.2)

/-- The digits at the first grid from `count` digits on, of at most `fuel` grids, that has a point
in the interval. -/
def shortestFrom (num den : Nat) (inside : Nat × Nat → Bool) (top : Int) :
    (fuel count : Nat) → Nat × Int
  | 0, count => ((unitsBelow num den (top - count)).1, top - count)
  | fuel + 1, count =>
    let power := top - count
    let (low, half) := unitsBelow num den power
    let lowIn := inside (decimalRatio low power)
    let highIn := inside (decimalRatio (low + 1) power)
    -- both neighbours on this grid read back, so the nearer one is written
    if lowIn && highIn then
      match half with
      | .lt => (low, power)
      | .gt => (low + 1, power)
      | .eq => (if low % 2 = 0 then low else low + 1, power)
    else if lowIn then (low, power)
    else if highIn then (low + 1, power)
    else shortestFrom num den inside top fuel (count + 1)

/-- The shortest digits and their power of ten for a positive number. -/
def shortest (mantissa : Nat) (exponent : Int) : Nat × Int :=
  let v := Binary64.ratio mantissa exponent
  let ends := roundingInterval mantissa exponent
  let even := mantissa % 2 = 0
  let inside := fun d => fractionBelow even ends.1 d && fractionBelow even d ends.2
  shortestFrom v.1 v.2 inside (tenPower v.1 v.2) 17 0

/-- Digits without trailing zeros. -/
def significantDigits (n : Nat) : List Char :=
  ((Nat.toDigits 10 n).reverse.dropWhile (· = '0')).reverse

/-- Digits with the decimal point behind the first `point` of them, zeros filled in. -/
def positional (digits : List Char) (point : Int) : List Char :=
  if point ≤ 0 then '0' :: '.' :: List.replicate point.natAbs '0' ++ digits
  else
    let whole := digits.take point.natAbs
    let zeros := List.replicate (point.natAbs - digits.length) '0'
    let fraction := digits.drop point.natAbs
    whole ++ zeros ++ '.' :: (if fraction.isEmpty then ['0'] else fraction)

/-- Digits with one of them before the point, and the power of ten. -/
def scientific (digits : List Char) (power : Int) : List Char :=
  let head := digits.take 1 ++ (if digits.length ≤ 1 then [] else '.' :: digits.drop 1)
  let sign := if power < 0 then '-' else '+'
  let size := Nat.toDigits 10 power.natAbs
  head ++ 'e' :: sign :: (if size.length < 2 then '0' :: size else size)

/-- The shortest text of a number that is neither infinite nor undefined. -/
def finiteText (mantissa : Nat) (exponent : Int) : List Char :=
  if mantissa = 0 then ['0', '.', '0']
  else
    let s := shortest mantissa exponent
    let digits := significantDigits s.1
    let power := (digitCount s.1 : Int) - 1 + s.2
    if -5 < power && power < 16 then positional digits (power + 1) else scientific digits power

/-- The text of a number, with the given spellings of an infinity and of an undefined number. -/
def Binary64.text (infinity undefined : String) : Binary64 → String
  | .finite negative m e => (if negative then "-" else "") ++ String.ofList (finiteText m e)
  | .infinite negative => (if negative then "-" else "") ++ infinity
  | .notANumber => undefined

end ScriptTypings.Number
