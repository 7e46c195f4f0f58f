import ScriptTypings.Text.Utf8

/-!
# Percent encoding

`percentDecode` reads each run of ASCII characters as bytes, in which `%` and two hexadecimal
digits stand for one byte, and reads the bytes as UTF-8. A `%` before anything else stands for
itself, and characters beyond ASCII are kept.
-/

namespace ScriptTypings.Text

def hexValue? (c : Char) : Option Nat :=
  if '0' ≤ c && c ≤ '9' then some (c.toNat - 48)
  else if 'a' ≤ c && c ≤ 'f' then some (c.toNat - 87)
  else if 'A' ≤ c && c ≤ 'F' then some (c.toNat - 55)
  else none

/-- The byte written by two hexadecimal digits. -/
def hexByte? (a b : Char) : Option UInt8 := do
  let high ← hexValue? a
  let low ← hexValue? b
  return UInt8.ofNat (high * 16 + low)

/-- The bytes that a run of ASCII characters stands for. -/
def percentBytes : List Char → List UInt8
  | '%' :: a :: b :: rest =>
    match hexByte? a b with
    | some byte => byte :: percentBytes rest
    | none => 37 :: percentBytes (a :: b :: rest)
  | c :: rest => UInt8.ofNat c.toNat :: percentBytes rest
  | [] => []

/-- The second argument is the run of ASCII characters read so far, backwards. -/
def percentDecodeFrom : List Char → List Char → List Char
  | [], run => decodeLossy (percentBytes run.reverse)
  | c :: rest, run =>
    if c.toNat < 128 then percentDecodeFrom rest (c :: run)
    else decodeLossy (percentBytes run.reverse) ++ c :: percentDecodeFrom rest []

def percentDecode (s : List Char) : List Char :=
  percentDecodeFrom s []

end ScriptTypings.Text
