import ScriptTypings.Number.Binary64

/-!
# Decimal text with fixed places

The exact value of a number is rounded to the given number of places, a half to the even side.
-/

namespace ScriptTypings.Number

/-- A count of units `10 ^ -places`, with that many digits behind the point. -/
def placed (places count : Nat) : List Char :=
  let whole := Nat.toDigits 10 (count / powerOfTen places)
  let fraction := Nat.toDigits 10 (count % powerOfTen places)
  if places = 0 then whole
  else whole ++ '.' :: (List.replicate (places - fraction.length) '0' ++ fraction)

def Binary64.fixed (places : Nat) : Binary64 → String
  | .finite negative m e =>
    let r := Binary64.ratio m e
    let units := roundDiv (r.1 * powerOfTen places) r.2
    (if negative then "-" else "") ++ String.ofList (placed places units)
  | .infinite negative => (if negative then "-" else "") ++ "inf"
  | .notANumber => "nan"

end ScriptTypings.Number
